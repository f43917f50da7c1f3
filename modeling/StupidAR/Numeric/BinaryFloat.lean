import Mathlib.Algebra.Order.Field.Basic
import Mathlib.Algebra.Order.Field.Rat
import Mathlib.Algebra.Order.Ring.Abs
import Mathlib.Algebra.Order.Field.Power
import Mathlib.Data.Rat.Cast.Order
import Mathlib.Tactic.Linarith
import Mathlib.Tactic.NormNum
import Mathlib.Tactic.Positivity

/-!
# Finite binary floating-point numbers

A floating-point number is taken as the rational it stands for, together with the proof
that the format can hold it.
-/

namespace FloatingPoint

/-- `q` is an integer of at most `p` bits times a power of two from `emin` to `emax`. -/
def Representable (p : ℕ) (emin emax : ℤ) (q : ℚ) : Prop :=
  ∃ m e : ℤ, |m| < 2 ^ p ∧ emin ≤ e ∧ e ≤ emax ∧ q = m * 2 ^ e

namespace Representable

variable {p p' : ℕ} {emin emin' emax emax' : ℤ} {q : ℚ}

lemma mono (h : Representable p emin emax q) (hp : p ≤ p') (hmin : emin' ≤ emin)
    (hmax : emax ≤ emax') : Representable p' emin' emax' q := by
  obtain ⟨m, e, hm, he, he', rfl⟩ := h
  exact ⟨m, e, hm.trans_le (pow_le_pow_right₀ (by norm_num) hp), hmin.trans he,
    he'.trans hmax, rfl⟩

/-- A short integer over a power of two is held exactly. -/
lemma intCast_div {m : ℤ} {k : ℕ} (hm : |m| < 2 ^ p) (hmin : emin ≤ -k) (hmax : 0 ≤ emax) :
    Representable p emin emax (m / 2 ^ k) := by
  refine ⟨m, -k, hm, hmin, by omega, ?_⟩
  rw [zpow_neg, zpow_natCast, div_eq_mul_inv]

/-- Scaling by a power of two rounds only on overflow. -/
lemma mul_two_pow (h : Representable p emin emax q) (k : ℕ)
    (hq : |q * 2 ^ k| ≤ 2 ^ emax) : Representable p emin emax (q * 2 ^ k) := by
  obtain ⟨m, e, hm, he, he', rfl⟩ := h
  have hscale : (m : ℚ) * 2 ^ e * 2 ^ k = m * 2 ^ (e + k) := by
    rw [zpow_add₀ (by norm_num), zpow_natCast, mul_assoc]
  rw [hscale] at hq ⊢
  rcases eq_or_ne m 0 with rfl | hm0
  · exact ⟨0, e, hm, he, he', by simp⟩
  · refine ⟨m, e + k, hm, by omega, ?_, rfl⟩
    have hpos : (0 : ℚ) < 2 ^ (e + k) := by positivity
    have hone : (1 : ℚ) ≤ |(m : ℚ)| := by exact_mod_cast Int.one_le_abs hm0
    rw [abs_mul, abs_of_pos hpos] at hq
    have hle : (2 : ℚ) ^ (e + k) ≤ 2 ^ emax := by nlinarith
    exact (zpow_le_zpow_iff_right₀ (by norm_num)).mp hle

end Representable

/-- A finite floating-point number. The two zeros are one number here, and infinities and NaNs,
which have no integer part, are left out. -/
@[ext] structure BinaryFloat (p : ℕ) (emin emax : ℤ) where
  val : ℚ
  representable : Representable p emin emax val

namespace BinaryFloat

variable {p : ℕ} {emin emax : ℤ}

instance : DecidableEq (BinaryFloat p emin emax) :=
  fun _ _ => decidable_of_iff _ BinaryFloat.ext_iff.symm

/-- The number in a format that has every number of the first. -/
def widen {p' : ℕ} {emin' emax' : ℤ} (x : BinaryFloat p emin emax) (hp : p ≤ p')
    (hmin : emin' ≤ emin) (hmax : emax ≤ emax') : BinaryFloat p' emin' emax' :=
  ⟨x.val, x.representable.mono hp hmin hmax⟩

/-- `m / 2 ^ k`, which takes no rounding. -/
def ofScaled (m : ℤ) (k : ℕ) (hm : |m| < 2 ^ p) (hmin : emin ≤ -k) (hmax : 0 ≤ emax) :
    BinaryFloat p emin emax :=
  ⟨m / 2 ^ k, .intCast_div hm hmin hmax⟩

end BinaryFloat

/-- IEEE single precision. -/
abbrev Binary32 : Type := BinaryFloat 24 (-149) 104

/-- IEEE double precision. -/
abbrev Binary64 : Type := BinaryFloat 53 (-1074) 971

def Binary32.toBinary64 (x : Binary32) : Binary64 :=
  x.widen (by norm_num) (by norm_num) (by norm_num)

@[simp] lemma Binary32.toBinary64_val (x : Binary32) : x.toBinary64.val = x.val := rfl

end FloatingPoint
