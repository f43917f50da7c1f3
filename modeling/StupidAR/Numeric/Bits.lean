import StupidAR.Numeric.Rescale

/-!
# Shifts of two's complement words as rescales

A word holding a signed integer in its upper or lower bits is moved between widths by
shifts. Left shifts drop the bits that leave the word, right shifts repeat the sign.
-/

namespace FixedPoint

variable {n m k : ℕ}

lemma inRange_toInt (x : BitVec n) : InRange n x.toInt := ⟨x.le_toInt, x.toInt_lt⟩

lemma bmod_of_inRange (hn : 0 < n) {v : ℤ} (h : InRange n v) : v.bmod (2 ^ n) = v := by
  obtain ⟨hlow, hup⟩ := h
  obtain ⟨j, rfl⟩ := Nat.exists_eq_succ_of_ne_zero hn.ne'
  rw [Nat.succ_sub_one] at hlow hup
  apply Int.bmod_eq_of_le_mul_two
  · push_cast [pow_succ]
    omega
  · push_cast [pow_succ]
    omega

lemma toInt_ofInt_of_inRange (hn : 0 < n) {v : ℤ} (h : InRange n v) :
    (BitVec.ofInt n v).toInt = v := BitVec.toInt_ofInt_eq_self hn h.1 h.2

lemma toInt_setWidth_bmod (h : m ≤ n) (x : BitVec n) :
    (x.setWidth m).toInt = x.toInt.bmod (2 ^ m) := by
  rw [BitVec.toInt_setWidth, BitVec.toInt_eq_toNat_bmod,
    Int.bmod_bmod_of_dvd (pow_dvd_pow 2 h)]

/-- Narrowing keeps a value that the narrow word can hold. -/
lemma toInt_setWidth_of_inRange (hm : 0 < m) (h : m ≤ n) {x : BitVec n}
    (hx : InRange m x.toInt) : (x.setWidth m).toInt = x.toInt := by
  rw [toInt_setWidth_bmod h, bmod_of_inRange hm hx]

lemma toInt_shiftLeft_bmod (x : BitVec n) :
    (x <<< k).toInt = (x.toInt * 2 ^ k).bmod (2 ^ n) := by
  rw [BitVec.toInt_shiftLeft, BitVec.toInt_eq_toNat_bmod, Int.bmod_mul_bmod,
    Nat.shiftLeft_eq]
  push_cast
  rfl

lemma toInt_shiftLeft_of_inRange (hn : 0 < n) {x : BitVec n}
    (h : InRange n (x.toInt * 2 ^ k)) : (x <<< k).toInt = x.toInt * 2 ^ k := by
  rw [toInt_shiftLeft_bmod, bmod_of_inRange hn h]

/-- A left shift by `k` leaves only the low `n - k` bits of a word of `n` bits, scaled. -/
lemma toInt_shiftLeft_low (hm : 0 < m) (h : m + k = n) (x : BitVec n) :
    (x <<< k).toInt = rescale m n (x.setWidth m).toInt := by
  subst h
  have hlow := inRange_toInt (x.setWidth m)
  have hrange := hlow.rescale hm (Nat.add_pos_left hm k)
  have hsplit := Int.bmod_eq_self_sub_mul_bdiv x.toInt (2 ^ m)
  rw [← toInt_setWidth_bmod (Nat.le_add_right m k)] at hsplit
  have hx : x.toInt * 2 ^ k = rescale m (m + k) (x.setWidth m).toInt +
      ((2 ^ (m + k) : ℕ) : ℤ) * x.toInt.bdiv (2 ^ m) := by
    rw [rescale_widen _ (Nat.le_add_right m k), Nat.add_sub_cancel_left, hsplit]
    push_cast [pow_add]
    ring
  rw [toInt_shiftLeft_bmod, hx, Int.add_mul_bmod_self_left,
    bmod_of_inRange (Nat.add_pos_left hm k) hrange]

lemma toInt_sshiftRight_eq_ediv (x : BitVec n) : (x.sshiftRight k).toInt = x.toInt / 2 ^ k := by
  rw [BitVec.toInt_sshiftRight, Int.shiftRight_eq_div_pow]
  push_cast
  rfl

/-- A right shift of a value of width `m + k` rescales it to width `m`. -/
lemma toInt_sshiftRight_rescale {x : BitVec n} {v : ℤ} (hx : x.toInt = v) :
    (x.sshiftRight k).toInt = rescale (m + k) m v := by
  rw [toInt_sshiftRight_eq_ediv, hx, rescale_narrow _ (Nat.le_add_right m k),
    Nat.add_sub_cancel_left]

/-- A left shift of a value of width `m` rescales it to width `m + k`. -/
lemma toInt_shiftLeft_rescale (hm : 0 < m) (h : m + k ≤ n) {x : BitVec n} {v : ℤ}
    (hv : InRange m v) (hx : x.toInt = v) : (x <<< k).toInt = rescale m (m + k) v := by
  subst hx
  have hwide := hv.rescale hm (Nat.add_pos_left hm k)
  rw [rescale_widen _ (Nat.le_add_right m k), Nat.add_sub_cancel_left] at hwide ⊢
  exact toInt_shiftLeft_of_inRange (by omega) (hwide.mono h)

end FixedPoint
