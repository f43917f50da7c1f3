import Mathlib.Data.Rat.Floor
import Mathlib.Algebra.Order.Floor.Ring
import Mathlib.Algebra.Order.AbsoluteValue.Basic
import Mathlib.Tactic.Linarith
import Mathlib.Tactic.FieldSimp
import Mathlib.Tactic.Ring
import Mathlib.Tactic.Positivity
import Mathlib.Tactic.NormNum

/-!
# Fixed-point numbers of different widths

A signed integer of width `w` stands for the fraction `v / 2 ^ (w - 1)`. Two ways to lose
digits are compared: flooring when a value moves to a narrower width, and truncation
toward zero when a number is cut off to an integer.
-/

namespace FixedPoint

section Truncate

variable {K : Type} [Field K] [LinearOrder K] [IsStrictOrderedRing K] [FloorRing K]

/-- The integer part of `x`, the fraction being dropped. -/
def truncate (x : K) : ℤ := if 0 ≤ x then ⌊x⌋ else ⌈x⌉

omit [IsStrictOrderedRing K] in
lemma truncate_of_nonneg {x : K} (hx : 0 ≤ x) : truncate x = ⌊x⌋ := if_pos hx

lemma truncate_of_nonpos {x : K} (hx : x ≤ 0) : truncate x = ⌈x⌉ := by
  rcases hx.lt_or_eq with hneg | rfl
  · exact if_neg (not_le.mpr hneg)
  · simp [truncate]

@[simp] lemma truncate_intCast (v : ℤ) : truncate (v : K) = v := by
  simp [truncate]

lemma truncate_two_pow (k : ℕ) : truncate ((2 : K) ^ k) = 2 ^ k := by
  have hcast := truncate_intCast (K := K) (2 ^ k)
  push_cast at hcast
  exact hcast

lemma truncate_neg (x : K) : truncate (-x) = -truncate x := by
  rcases le_total 0 x with hx | hx
  · rw [truncate_of_nonneg hx, truncate_of_nonpos (neg_nonpos.mpr hx), Int.ceil_neg]
  · rw [truncate_of_nonpos hx, truncate_of_nonneg (neg_nonneg.mpr hx), Int.floor_neg]

/-- Less than one unit is lost. -/
lemma abs_truncate_sub_lt_one (x : K) : |(truncate x : K) - x| < 1 := by
  rw [abs_lt]
  rcases le_total 0 x with hx | hx
  · rw [truncate_of_nonneg hx]
    have hlow := Int.floor_le x
    have hup := Int.lt_floor_add_one x
    constructor <;> linarith
  · rw [truncate_of_nonpos hx]
    have hlow := Int.le_ceil x
    have hup := Int.ceil_lt_add_one x
    constructor <;> linarith

lemma truncate_mono {x y : K} (hxy : x ≤ y) : truncate x ≤ truncate y := by
  rcases le_total 0 x with hx | hx
  · rw [truncate_of_nonneg hx, truncate_of_nonneg (hx.trans hxy)]
    exact Int.floor_mono hxy
  · rcases le_total 0 y with hy | hy
    · rw [truncate_of_nonpos hx, truncate_of_nonneg hy]
      exact (Int.ceil_nonpos.mpr hx).trans (Int.floor_nonneg.mpr hy)
    · rw [truncate_of_nonpos hx, truncate_of_nonpos hy]
      exact Int.ceil_mono hxy

lemma le_truncate {x : K} {a : ℤ} (h : (a : K) ≤ x) : a ≤ truncate x := by
  have hmono := truncate_mono h
  rwa [truncate_intCast] at hmono

lemma truncate_lt {x : K} {b : ℤ} (hb : 0 < b) (h : x < b) : truncate x < b := by
  rcases le_total 0 x with hx | hx
  · rw [truncate_of_nonneg hx]
    exact Int.floor_lt.mpr h
  · rw [truncate_of_nonpos hx]
    exact (Int.ceil_nonpos.mpr hx).trans_lt hb

/-- Truncating on a finer grid first loses nothing: both truncations go toward zero. -/
lemma truncate_mul_natCast_tdiv (x : K) {n : ℕ} (hn : 0 < n) :
    (truncate (x * n)).tdiv n = truncate x := by
  have hn' : (0 : K) < n := Nat.cast_pos.mpr hn
  have hnonneg : ∀ z : K, 0 ≤ z → (truncate (z * n)).tdiv n = truncate z := by
    intro z hz
    have hzn : 0 ≤ z * n := mul_nonneg hz hn'.le
    rw [truncate_of_nonneg hz, truncate_of_nonneg hzn,
      Int.tdiv_eq_ediv_of_nonneg (Int.floor_nonneg.mpr hzn), ← Int.floor_div_natCast,
      mul_div_cancel_right₀ z hn'.ne']
  rcases le_total 0 x with hx | hx
  · exact hnonneg x hx
  · have h := hnonneg (-x) (neg_nonneg.mpr hx)
    rw [neg_mul, truncate_neg, truncate_neg, Int.neg_tdiv] at h
    exact neg_injective h

end Truncate

section Rescale

/-- The value `v` of width `a` on the grid of width `b`, floored where that is coarser. -/
def rescale (a b : ℕ) (v : ℤ) : ℤ := ⌊(v : ℚ) * 2 ^ ((b : ℤ) - a)⌋

variable {a b c : ℕ} (v : ℤ)

lemma rescale_eq_ediv : rescale a b v = v * 2 ^ b / 2 ^ a := by
  have hcast : (v : ℚ) * 2 ^ ((b : ℤ) - a) = ((v * 2 ^ b : ℤ) : ℚ) / ((2 ^ a : ℕ) : ℚ) := by
    rw [zpow_sub₀ (by norm_num)]
    push_cast
    simp only [zpow_natCast]
    ring
  rw [rescale, hcast, Rat.floor_intCast_div_natCast]
  push_cast
  rfl

lemma rescale_widen (h : a ≤ b) : rescale a b v = v * 2 ^ (b - a) := by
  obtain ⟨k, rfl⟩ := Nat.exists_eq_add_of_le h
  rw [rescale_eq_ediv, Nat.add_sub_cancel_left, pow_add,
    show v * (2 ^ a * 2 ^ k) = v * 2 ^ k * 2 ^ a by ring]
  exact Int.mul_ediv_cancel _ (by positivity)

lemma rescale_narrow (h : b ≤ a) : rescale a b v = v / 2 ^ (a - b) := by
  obtain ⟨k, rfl⟩ := Nat.exists_eq_add_of_le h
  rw [rescale_eq_ediv, Nat.add_sub_cancel_left, pow_add, mul_comm v]
  exact Int.mul_ediv_mul_of_pos _ _ (by positivity)

@[simp] lemma rescale_self : rescale a a v = v := by
  simp [rescale_widen v le_rfl]

/-- An intermediate width as large as one of the two ends is not visible in the result. -/
theorem rescale_rescale (h : min a c ≤ b) : rescale b c (rescale a b v) = rescale a c v := by
  rcases le_total a b with hab | hba
  · rw [rescale_widen v hab, rescale_eq_ediv, rescale_eq_ediv]
    obtain ⟨k, rfl⟩ := Nat.exists_eq_add_of_le hab
    rw [Nat.add_sub_cancel_left, pow_add,
      show v * 2 ^ k * 2 ^ c = 2 ^ k * (v * 2 ^ c) by ring, mul_comm ((2 : ℤ) ^ a)]
    exact Int.mul_ediv_mul_of_pos _ _ (by positivity)
  · rcases hba.eq_or_lt with rfl | hlt
    · rw [rescale_self]
    · have hcb : c ≤ b := (min_le_iff.mp h).resolve_left (not_le.mpr hlt)
      rw [rescale_narrow v hba, rescale_narrow _ hcb, rescale_narrow v (hcb.trans hba),
        Int.ediv_ediv_of_nonneg (by positivity), ← pow_add]
      congr 2
      omega

/-- Narrowing is the upper adjoint of widening: it rounds down as little as it can. -/
lemma rescale_le_iff {v w : ℤ} (h : a ≤ b) : rescale a b v ≤ w ↔ v ≤ rescale b a w := by
  rw [rescale_widen v h, rescale_narrow w h, Int.le_ediv_iff_mul_le (by positivity)]

/-- The value `v` of width `a` on the grid of width `b`, after a stop on the grid of width
`m`. -/
def rescaleVia (m a b : ℕ) (v : ℤ) : ℤ := rescale m b (rescale a m v)

/-- On a route only the narrowest stop so far leaves a trace. -/
lemma rescale_rescaleVia {m : ℕ} (hm : m ≤ b) :
    rescale b c (rescaleVia m a b v) = rescaleVia (min m c) a c v := by
  unfold rescaleVia
  rw [rescale_rescale _ (min_le_of_left_le hm)]
  rcases le_total m c with hmc | hcm
  · rw [min_eq_left hmc]
  · rw [min_eq_right hcm, rescale_self, rescale_rescale v (min_le_of_right_le hcm)]

/-- A stop no narrower than one of the two ends does not matter. -/
lemma rescaleVia_of_min_le {m : ℕ} (h : min a b ≤ m) : rescaleVia m a b v = rescale a b v :=
  rescale_rescale v h

lemma rescale_mono {v w : ℤ} (h : v ≤ w) : rescale a b v ≤ rescale a b w := by
  rw [rescale_eq_ediv, rescale_eq_ediv]
  exact Int.ediv_le_ediv (by positivity) (Int.mul_le_mul_of_nonneg_right h (by positivity))

/-- `v` is a signed integer of width `w`. -/
def InRange (w : ℕ) (v : ℤ) : Prop := -2 ^ (w - 1) ≤ v ∧ v < 2 ^ (w - 1)

instance (w : ℕ) : Decidable (InRange w v) := inferInstanceAs (Decidable (_ ∧ _))

lemma InRange.mono {v : ℤ} (h : InRange a v) (hab : a ≤ b) : InRange b v := by
  have hpow : (2 : ℤ) ^ (a - 1) ≤ 2 ^ (b - 1) := pow_le_pow_right₀ (by norm_num) (by omega)
  exact ⟨(neg_le_neg hpow).trans h.1, h.2.trans_le hpow⟩

lemma InRange.abs_lt_two_pow {v : ℤ} (h : InRange a v) (hab : a - 1 < b) : |v| < 2 ^ b := by
  have hpow : (2 : ℤ) ^ (a - 1) < 2 ^ b := pow_lt_pow_right₀ (by norm_num) hab
  rw [abs_lt]
  exact ⟨(neg_lt_neg hpow).trans_le h.1, h.2.trans hpow⟩

/-- Every value of the source width lands in the range of the target width. -/
theorem InRange.rescale {v : ℤ} (h : InRange a v) (ha : 0 < a) (hb : 0 < b) :
    InRange b (rescale a b v) := by
  obtain ⟨hlow, hup⟩ := h
  have hmin : -(2 : ℤ) ^ (b - 1) * 2 ^ a = -2 ^ (a - 1) * 2 ^ b := by
    obtain ⟨a, rfl⟩ := Nat.exists_eq_succ_of_ne_zero ha.ne'
    obtain ⟨b, rfl⟩ := Nat.exists_eq_succ_of_ne_zero hb.ne'
    simp only [Nat.succ_eq_add_one, Nat.add_sub_cancel, pow_succ]
    ring
  have hpow : (0 : ℤ) < 2 ^ b := by positivity
  rw [InRange, rescale_eq_ediv]
  constructor
  · rw [Int.le_ediv_iff_mul_le (by positivity), hmin]
    exact Int.mul_le_mul_of_nonneg_right hlow hpow.le
  · rw [Int.ediv_lt_iff_lt_mul (by positivity)]
    have hlt : v * 2 ^ b < 2 ^ (a - 1) * 2 ^ b := Int.mul_lt_mul_of_pos_right hup hpow
    linarith

lemma inRange_truncate {x : ℚ} {w : ℕ} (h : -2 ^ (w - 1) ≤ x) (h' : x < 2 ^ (w - 1)) :
    InRange w (truncate x) := by
  constructor
  · apply le_truncate
    push_cast
    exact h
  · apply truncate_lt (by positivity)
    push_cast
    exact h'

/-- Dropping the fraction admits almost one more unit below the range, and none above. -/
lemma inRange_truncate_iff {x : ℚ} {w : ℕ} :
    InRange w (truncate x) ↔ -2 ^ (w - 1) - 1 < x ∧ x < 2 ^ (w - 1) := by
  have hpow : (0 : ℚ) < 2 ^ (w - 1) := by positivity
  have hcast : (((2 : ℤ) ^ (w - 1) : ℤ) : ℚ) = 2 ^ (w - 1) := by push_cast; rfl
  unfold InRange
  rcases le_total 0 x with hx | hx
  · rw [truncate_of_nonneg hx, Int.floor_lt, hcast]
    refine and_congr_left fun _ => ?_
    have hfloor : 0 ≤ ⌊x⌋ := Int.floor_nonneg.mpr hx
    have hneg : -(2 : ℤ) ^ (w - 1) ≤ 0 := by simp
    exact ⟨fun _ => by linarith, fun _ => hneg.trans hfloor⟩
  · rw [truncate_of_nonpos hx, Int.le_ceil_iff]
    push_cast
    refine and_congr_right fun _ => ?_
    have hceil : ⌈x⌉ ≤ 0 := Int.ceil_le.mpr (by simpa using hx)
    have hpos : (0 : ℤ) < 2 ^ (w - 1) := by positivity
    exact ⟨fun _ => hx.trans_lt hpow, fun _ => hceil.trans_lt hpos⟩

end Rescale

section TwoGrids

lemma add_one_ediv (q : ℤ) {m : ℤ} (hm : 0 < m) :
    (q + 1) / m = q / m + if m ∣ q + 1 then 1 else 0 := by
  have hq := Int.mul_ediv_add_emod q m
  have hlow := Int.emod_nonneg q hm.ne'
  have hup := Int.emod_lt_of_pos q hm
  split_ifs with hdvd
  · obtain ⟨c, hc⟩ := hdvd
    have hcq : c = q / m + 1 := by nlinarith
    rw [hc, Int.mul_ediv_cancel_left c hm.ne', hcq]
  · have hne : q % m + 1 ≠ m := fun heq => hdvd ⟨q / m + 1, by linarith⟩
    have hlt : q % m + 1 < m := lt_of_le_of_ne hup hne
    rw [add_zero]
    apply le_antisymm
    · apply Int.le_of_lt_add_one
      rw [Int.ediv_lt_iff_lt_mul hm]
      linarith
    · rw [Int.le_ediv_iff_mul_le hm]
      linarith

/-- Truncating `k` digits before a rescale to width `w`, instead of flooring them, shows only
in negative values whose truncation falls on the grid of width `w`. -/
theorem rescale_tdiv {n w : ℕ} (k : ℕ) (h : w ≤ n) (T : ℤ) :
    rescale n w (T.tdiv (2 ^ k)) = rescale (n + k) w T +
      if T < 0 ∧ ¬2 ^ k ∣ T ∧ 2 ^ (n - w) ∣ T.tdiv (2 ^ k) then 1 else 0 := by
  have hfloor : rescale (n + k) w T = T / 2 ^ k / 2 ^ (n - w) := by
    rw [← rescale_rescale T (min_le_of_right_le h), rescale_narrow T (Nat.le_add_right n k),
      rescale_narrow _ h, Nat.add_sub_cancel_left]
  rw [hfloor, rescale_narrow _ h]
  by_cases hexact : 0 ≤ T ∨ 2 ^ k ∣ T
  · have hcond : ¬(T < 0 ∧ ¬2 ^ k ∣ T ∧ 2 ^ (n - w) ∣ T.tdiv (2 ^ k)) := by
      rintro ⟨hneg, hdvd, -⟩
      exact hexact.elim (not_le.mpr hneg) hdvd
    rw [if_neg hcond, Int.tdiv_eq_ediv, if_pos hexact, add_zero, add_zero]
  · have htdiv : T.tdiv (2 ^ k) = T / 2 ^ k + 1 := by
      rw [Int.tdiv_eq_ediv, if_neg hexact, Int.sign_eq_one_of_pos (by positivity)]
    rw [not_or, not_le] at hexact
    rw [htdiv, add_one_ediv _ (by positivity)]
    simp only [hexact.1, hexact.2, not_false_eq_true, true_and]

end TwoGrids

section Accuracy

variable {n w : ℕ} {X : ℚ} {t : ℤ}

lemma abs_rescale_sub_lt_of_le (hn : 0 < n) (h : n ≤ w) (ht : |(t : ℚ) - X| < 1) :
    |(rescale n w t : ℚ) / 2 ^ (w - 1) - X / 2 ^ (n - 1)| < 1 / 2 ^ (n - 1) := by
  have hpow : (2 : ℚ) ^ (w - 1) = 2 ^ (w - n) * 2 ^ (n - 1) := by
    rw [← pow_add]
    congr 1
    omega
  have heq : (rescale n w t : ℚ) / 2 ^ (w - 1) - X / 2 ^ (n - 1) = (t - X) / 2 ^ (n - 1) := by
    rw [rescale_widen t h, hpow]
    push_cast
    field_simp
  rw [heq, abs_div, abs_of_pos (show (0 : ℚ) < 2 ^ (n - 1) by positivity)]
  exact div_lt_div_of_pos_right ht (by positivity)

/-- The floor errs downward by less than a step of the coarse grid, the truncation in
either direction by less than a step of the fine one. -/
lemma abs_rescale_sub_lt_of_lt (hw : 0 < w) (h : w < n) (ht : |(t : ℚ) - X| < 1) :
    |(rescale n w t : ℚ) / 2 ^ (w - 1) - X / 2 ^ (n - 1)| < 1 / 2 ^ (w - 1) := by
  have hpow : (2 : ℚ) ^ (n - 1) = 2 ^ (n - w) * 2 ^ (w - 1) := by
    rw [← pow_add]
    congr 1
    omega
  set r := rescale n w t with hr
  rw [rescale_narrow t h.le] at hr
  have hpos : (0 : ℤ) < 2 ^ (n - w) := by positivity
  have hlow : r * 2 ^ (n - w) ≤ t := hr ▸ Int.ediv_mul_le t hpos.ne'
  have hup : t + 1 ≤ r * 2 ^ (n - w) + 2 ^ (n - w) := by
    have hlt := Int.lt_ediv_add_one_mul_self t hpos
    rw [← hr, add_mul, one_mul] at hlt
    omega
  have hstep : (2 : ℚ) ≤ 2 ^ (n - w) := by
    simpa using pow_le_pow_right₀ (show (1 : ℚ) ≤ 2 by norm_num) (show 1 ≤ n - w by omega)
  have hlow' : (r : ℚ) * 2 ^ (n - w) ≤ t := by exact_mod_cast hlow
  have hup' : (t : ℚ) + 1 ≤ r * 2 ^ (n - w) + 2 ^ (n - w) := by exact_mod_cast hup
  have heq : (r : ℚ) / 2 ^ (w - 1) - X / 2 ^ (n - 1) =
      (r * 2 ^ (n - w) - X) / 2 ^ (n - w) / 2 ^ (w - 1) := by
    rw [hpow]
    field_simp
  obtain ⟨hX, hX'⟩ := abs_lt.mp ht
  rw [heq, abs_div, abs_of_pos (show (0 : ℚ) < 2 ^ (w - 1) by positivity)]
  apply div_lt_div_of_pos_right _ (by positivity)
  rw [abs_div, abs_of_pos (show (0 : ℚ) < 2 ^ (n - w) by positivity),
    div_lt_one (by positivity), abs_lt]
  constructor <;> linarith

/-- Truncation on the grid of width `n` followed by a rescale to width `w` errs by less
than one step of the coarser of the two grids. -/
theorem abs_rescale_sub_lt (hn : 0 < n) (hw : 0 < w) (ht : |(t : ℚ) - X| < 1) :
    |(rescale n w t : ℚ) / 2 ^ (w - 1) - X / 2 ^ (n - 1)| < 1 / 2 ^ (min w n - 1) := by
  rcases le_or_gt n w with h | h
  · rw [min_eq_right h]
    exact abs_rescale_sub_lt_of_le hn h ht
  · rw [min_eq_left h.le]
    exact abs_rescale_sub_lt_of_lt hw h ht

end Accuracy

end FixedPoint
