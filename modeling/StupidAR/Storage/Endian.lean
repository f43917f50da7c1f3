import Mathlib.Data.List.Induction
import Mathlib.Data.Nat.Digits.Defs

/-!
# Byte order

A sequence of `w`-bit digits read as an unsigned integer from either end.
-/

namespace Storage

variable {w : ℕ}

/-- The digits with the least significant one first. -/
def littleEndian (bs : List (BitVec w)) : ℕ := Nat.ofDigits (2 ^ w) (bs.map BitVec.toNat)

/-- The digits with the most significant one first. -/
def bigEndian (bs : List (BitVec w)) : ℕ := bs.foldl (fun v b => v * 2 ^ w + b.toNat) 0

@[simp] lemma littleEndian_nil : littleEndian ([] : List (BitVec w)) = 0 := rfl

@[simp] lemma littleEndian_cons (b : BitVec w) (bs : List (BitVec w)) :
    littleEndian (b :: bs) = b.toNat + 2 ^ w * littleEndian bs := by
  rw [littleEndian, List.map_cons, Nat.ofDigits_cons]
  rfl

lemma bigEndian_concat (bs : List (BitVec w)) (b : BitVec w) :
    bigEndian (bs ++ [b]) = bigEndian bs * 2 ^ w + b.toNat := by
  rw [bigEndian, List.foldl_append]
  rfl

/-- Reading from the other end is reading the reversed digits. -/
theorem littleEndian_reverse (bs : List (BitVec w)) :
    littleEndian bs.reverse = bigEndian bs := by
  induction bs using List.reverseRecOn with
  | nil => rfl
  | append_singleton bs b ih =>
    rw [List.reverse_concat, littleEndian_cons, ih, bigEndian_concat]
    ring

lemma toNat_append_digit {m : ℕ} (x : BitVec m) (y : BitVec w) :
    (x ++ y).toNat = y.toNat + 2 ^ w * x.toNat := by
  rw [BitVec.toNat_append, ← Nat.shiftLeft_add_eq_or_of_lt y.isLt, Nat.shiftLeft_eq]
  ring

end Storage
