import StupidAR.Pcm.Sample
import StupidAR.Storage.Endian
import StupidAR.Storage.Filling

/-!
# Reversing the bytes of an object

`reverse_bytes` on the bytes of an object of any size, and on `pcm24_t`.
-/

namespace StupidAR

open Storage

section Loop

variable {n : ℕ}

/-- `presult[i] = psource[size - i - 1]`. -/
def reverseByte (t : Vector Uint8T n) (s : Filling Uint8T n) (i : ℕ) :
    Option (Filling Uint8T n) := do
  let (b, s) ← s.read t (n - i - 1)
  s.write i b

def reverseLoop (t : Vector Uint8T n) : Option (Filling Uint8T n) :=
  (List.range n).foldlM (reverseByte t) .uninitialised

def reverseBytes (t : Vector Uint8T n) : Option (Vector Uint8T n) := do
  let s ← reverseLoop t
  s.object?

/-- The loop before iteration `i`: the first `i` bytes are written, once each, and no others. -/
structure ReversedBelow (t : Vector Uint8T n) (i : ℕ) (s : Filling Uint8T n) : Prop where
  cells : ∀ k (hk : k < n), s.cells[k] = if k < i then some t.reverse[k] else none
  reads : ∀ k, .read k ∈ s.log → k < n
  writes : ∀ k, s.log.count (.write k) = if k < i then 1 else 0

lemma reversedBelow_zero (t : Vector Uint8T n) : ReversedBelow t 0 .uninitialised where
  cells := by simp [Filling.uninitialised]
  reads := by simp [Filling.uninitialised]
  writes := by simp [Filling.uninitialised]

lemma reverseByte_eq (t : Vector Uint8T n) {i : ℕ} (hi : i < n) (hsource : n - i - 1 < n)
    (s : Filling Uint8T n) : reverseByte t s i = some ⟨s.cells.set i (some t[n - i - 1]),
      s.log ++ [.read (n - i - 1)] ++ [.write i]⟩ := by
  rw [reverseByte, Filling.read_of_lt hsource]
  exact Filling.write_of_lt hi _ _

lemma ReversedBelow.next {t : Vector Uint8T n} {i : ℕ} (hi : i < n) {s : Filling Uint8T n}
    (h : ReversedBelow t i s) : ∃ s', reverseByte t s i = some s' ∧ ReversedBelow t (i + 1) s' := by
  refine ⟨_, reverseByte_eq t hi (by omega) s, ?_, ?_, ?_⟩
  · intro k hk
    by_cases hik : i = k
    · subst hik
      simp [Nat.sub_right_comm]
    · have hlt : k < i + 1 ↔ k < i := by omega
      simp only [Vector.getElem_set_ne _ _ hik, h.cells k hk, hlt]
  · intro k hk
    simp only [List.mem_append, List.mem_singleton, Access.read.injEq, reduceCtorEq,
      or_false] at hk
    rcases hk with hk | rfl
    · exact h.reads k hk
    · omega
  · intro k
    by_cases hik : i = k
    · subst hik
      simp [h.writes]
    · have hlt : k < i + 1 ↔ k < i := by omega
      simp [h.writes, hik, hlt]

lemma reverseLoop_run (t : Vector Uint8T n) :
    ∃ s, reverseLoop t = some s ∧ ReversedBelow t n s :=
  forLoop (reversedBelow_zero t) fun _ hi _ h => h.next hi

lemma reverseBytes_eq (t : Vector Uint8T n) : reverseBytes t = some t.reverse := by
  obtain ⟨s, hs, h⟩ := reverseLoop_run t
  rw [reverseBytes, hs]
  refine Filling.object?_eq fun i hi => ?_
  rw [h.cells i hi, if_pos hi]

end Loop

namespace Pcm24T

/-- `reverse_bytes<pcm24_t>`; `pcm24_t` is exactly its three bytes. -/
def reverseBytes (p : Pcm24T) : Option Pcm24T :=
  (StupidAR.reverseBytes p.data).map Pcm24T.mk

lemma toNat_word (p : Pcm24T) : p.word.toNat = littleEndian p.data.toList := by
  have hbytes : p.data.toList = [p.data[0], p.data[1], p.data[2]] := by
    apply List.ext_getElem
    · simp
    · intro i hi hi'
      simp only [List.length_cons, List.length_nil] at hi'
      interval_cases i <;> simp
  rw [hbytes, word, toNat_append_digit, toNat_append_digit]
  simp

lemma intValue_littleEndian (p : Pcm24T) :
    p.intValue = (BitVec.ofNat 24 (littleEndian p.data.toList)).signExtend 32 := by
  rw [intValue_eq, ← toNat_word, BitVec.ofNat_toNat, BitVec.setWidth_eq]

end Pcm24T

/-- `reverse_bytes` stays within its objects, writes every byte of the result once, and
turns the byte order around. -/
theorem reverseBytes_endianness :
    (∀ (n : ℕ) (b : Vector Uint8T n),
      (∃ s, reverseLoop b = some s ∧ (∀ i, .read i ∈ s.log → i < n) ∧
        ∀ i, s.log.count (.write i) = if i < n then 1 else 0) ∧
      ∃ r, reverseBytes b = some r ∧ littleEndian r.toList = bigEndian b.toList ∧
        reverseBytes r = some b) ∧
    ∀ p : Pcm24T, ∃ q, p.reverseBytes = some q ∧
      q.intValue = (BitVec.ofNat 24 (bigEndian p.data.toList)).signExtend 32 := by
  constructor
  · intro n b
    obtain ⟨s, hs, h⟩ := reverseLoop_run b
    refine ⟨⟨s, hs, h.reads, h.writes⟩, b.reverse, reverseBytes_eq b, ?_, ?_⟩
    · rw [Vector.toList_reverse, littleEndian_reverse]
    · rw [reverseBytes_eq, Vector.reverse_reverse]
  · intro p
    refine ⟨⟨p.data.reverse⟩, ?_, ?_⟩
    · rw [Pcm24T.reverseBytes, reverseBytes_eq]
      rfl
    · rw [Pcm24T.intValue_littleEndian, Vector.toList_reverse, littleEndian_reverse]

example : (Pcm24T.valueOf Pcm24T.minI32).reverseBytes.map Pcm24T.intValue = some 0x80 := by decide

end StupidAR
