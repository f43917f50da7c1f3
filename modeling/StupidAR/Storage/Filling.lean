import Mathlib.Data.List.Range
import Mathlib.Data.Vector.Basic

/-!
# Filling an object in a loop

The storage of an object that a loop writes element by element. What is not yet written is
indeterminate, and an access outside an array is undefined, which is `none` here.
-/

namespace Storage

variable {α σ : Type} {n : ℕ}

/-- An access to one element: a read from the source or a write to the result. -/
inductive Access where
  | read (i : ℕ)
  | write (i : ℕ)
  deriving DecidableEq

/-- The result being filled, and the accesses so far. -/
structure Filling (α : Type) (n : ℕ) where
  cells : Vector (Option α) n
  log : List Access

namespace Filling

def uninitialised : Filling α n := ⟨.replicate n none, []⟩

def read (source : Vector α n) (i : ℕ) (s : Filling α n) : Option (α × Filling α n) :=
  source[i]?.map fun b => (b, { s with log := s.log ++ [.read i] })

def write (i : ℕ) (b : α) (s : Filling α n) : Option (Filling α n) :=
  if h : i < n then some ⟨s.cells.set i (some b), s.log ++ [.write i]⟩ else none

/-- The finished object, which has no indeterminate element. -/
def object? (s : Filling α n) : Option (Vector α n) :=
  if h : ∀ i : Fin n, s.cells[i].isSome then some (.ofFn fun i => s.cells[i].get (h i)) else none

lemma read_of_lt {source : Vector α n} {i : ℕ} (h : i < n) (s : Filling α n) :
    s.read source i = some (source[i], { s with log := s.log ++ [.read i] }) := by
  simp [read, h]

lemma write_of_lt {i : ℕ} (h : i < n) (b : α) (s : Filling α n) :
    s.write i b = some ⟨s.cells.set i (some b), s.log ++ [.write i]⟩ := by
  simp [write, h]

lemma object?_eq {s : Filling α n} {xs : Vector α n}
    (h : ∀ i (hi : i < n), s.cells[i] = some xs[i]) : s.object? = some xs := by
  have hsome : ∀ i : Fin n, s.cells[i].isSome := fun i => by
    rw [Fin.getElem_fin, h i i.isLt]
    rfl
  rw [object?, dif_pos hsome, Option.some.injEq]
  ext i hi
  simp only [Vector.getElem_ofFn, Fin.getElem_fin, h i hi, Option.get_some]

end Filling

/-- What each iteration of `for (i = 0; i < k; ++i)` carries from `i` to `i + 1` holds of `k`
at the end, and the loop gets there. -/
theorem forLoop {body : σ → ℕ → Option σ} {I : ℕ → σ → Prop} {s : σ} {k : ℕ} (h0 : I 0 s)
    (hbody : ∀ i < k, ∀ s, I i s → ∃ s', body s i = some s' ∧ I (i + 1) s') :
    ∃ s', (List.range k).foldlM body s = some s' ∧ I k s' := by
  induction k with
  | zero => exact ⟨s, rfl, h0⟩
  | succ k ih =>
    obtain ⟨m, hm, hI⟩ := ih fun i hi => hbody i (by omega)
    obtain ⟨s', hs', hI'⟩ := hbody k (by omega) m hI
    refine ⟨s', ?_, hI'⟩
    rw [List.range_succ, List.foldlM_append, hm]
    simpa using hs'

end Storage
