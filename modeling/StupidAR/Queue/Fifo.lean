import Mathlib.Data.List.DropRight
import Mathlib.Data.List.Perm.Basic
import Mathlib.Data.List.Induction

/-!
# First-in first-out histories

The abstract purpose of a queue: a history of elements entering, elements leaving and
losses of the whole contents, in which elements leave in the order they entered.
-/

namespace Fifo

/-- The part of a list behind the last element that satisfies `p`. -/
def sinceLast {X : Type} (p : X → Bool) (l : List X) : List X :=
  l.rtakeWhile fun x => !p x

lemma sinceLast_concat {X : Type} (p : X → Bool) (l : List X) (x : X) :
    sinceLast p (l ++ [x]) = if p x then [] else sinceLast p l ++ [x] := by
  cases h : p x <;> simp [sinceLast, h]

lemma sinceLast_eq_self {X : Type} {p : X → Bool} {l : List X} (h : ∀ x ∈ l, p x = false) :
    sinceLast p l = l := by
  apply List.rtakeWhile_eq_self_iff.mpr
  intro x hx
  simp [h x hx]

inductive Event (T : Type) where
  | enqueue (e : T)
  | dequeue (e : T)
  | clear (lost : List T)

namespace Event

variable {T : Type}

def enqueued? : Event T → Option T
  | enqueue e => some e
  | _ => none

def dequeued? : Event T → Option T
  | dequeue e => some e
  | _ => none

def lost : Event T → List T
  | clear l => l
  | _ => []

def isClear : Event T → Bool
  | clear _ => true
  | _ => false

end Event

variable {T : Type}

def enqueued (h : List (Event T)) : List T := h.filterMap Event.enqueued?

def dequeued (h : List (Event T)) : List T := h.filterMap Event.dequeued?

def lost (h : List (Event T)) : List T := h.flatMap Event.lost

/-- The events since the contents were last lost. -/
def epoch (h : List (Event T)) : List (Event T) := sinceLast Event.isClear h

/-- `History q₀ h q`: from contents `q₀`, the events `h` are possible and leave `q`. -/
inductive History (q₀ : List T) : List (Event T) → List T → Prop
  | nil : History q₀ [] q₀
  | enqueue {h : List (Event T)} {q : List T} (e : T) (hh : History q₀ h q) :
    History q₀ (h ++ [.enqueue e]) (q ++ [e])
  | dequeue {h : List (Event T)} {q : List T} {e : T} (hh : History q₀ h (e :: q)) :
    History q₀ (h ++ [.dequeue e]) q
  | clear {h : List (Event T)} {q : List T} (hh : History q₀ h q) :
    History q₀ (h ++ [.clear q]) []

section Append

variable (h h' : List (Event T)) (e : T) (l : List T)

@[simp] lemma enqueued_append : enqueued (h ++ h') = enqueued h ++ enqueued h' := by
  simp [enqueued]

@[simp] lemma dequeued_append : dequeued (h ++ h') = dequeued h ++ dequeued h' := by
  simp [dequeued]

@[simp] lemma lost_append : lost (h ++ h') = lost h ++ lost h' := by
  simp [lost]

@[simp] lemma enqueued_enqueue : enqueued [.enqueue e] = [e] := rfl

@[simp] lemma enqueued_dequeue : enqueued [.dequeue e] = [] := rfl

@[simp] lemma enqueued_clear : enqueued [.clear l] = [] := rfl

@[simp] lemma dequeued_enqueue : dequeued [.enqueue e] = [] := rfl

@[simp] lemma dequeued_dequeue : dequeued [.dequeue e] = [e] := rfl

@[simp] lemma dequeued_clear : dequeued [.clear l] = [] := rfl

@[simp] lemma lost_enqueue : lost [.enqueue e] = [] := rfl

@[simp] lemma lost_dequeue : lost [.dequeue e] = [] := rfl

@[simp] lemma lost_clear : lost [.clear l] = l := by
  simp [lost, Event.lost]

@[simp] lemma epoch_enqueue : epoch (h ++ [.enqueue e]) = epoch h ++ [.enqueue e] := by
  simp [epoch, sinceLast_concat, Event.isClear]

@[simp] lemma epoch_dequeue : epoch (h ++ [.dequeue e]) = epoch h ++ [.dequeue e] := by
  simp [epoch, sinceLast_concat, Event.isClear]

@[simp] lemma epoch_clear : epoch (h ++ [.clear l]) = [] := by
  simp [epoch, sinceLast_concat, Event.isClear]

end Append

/-- Since the last loss, what entered is what left followed by what is still there. -/
theorem History.epoch_law {h : List (Event T)} {q : List T} (hh : History [] h q) :
    enqueued (epoch h) = dequeued (epoch h) ++ q := by
  induction hh with
  | nil => rfl
  | enqueue e _ ih => simp [ih]
  | dequeue _ ih => simp [ih]
  | clear => simp [enqueued, dequeued]

/-- Elements leave at most once and in the order they entered, over losses too. -/
theorem History.dequeued_sublist {q₀ : List T} {h : List (Event T)} {q : List T}
    (hh : History q₀ h q) : (dequeued h ++ q).Sublist (q₀ ++ enqueued h) := by
  induction hh with
  | nil => simp [enqueued, dequeued]
  | enqueue e _ ih =>
    have hstep := ih.append (List.Sublist.refl [e])
    simpa [← List.append_assoc] using hstep
  | dequeue _ ih => simpa using ih
  | clear _ ih =>
    have hstep := (List.sublist_append_left _ _).trans ih
    simpa using hstep

/-- Every element that entered has left, was lost or is still there, exactly once. -/
theorem History.conservation {q₀ : List T} {h : List (Event T)} {q : List T}
    (hh : History q₀ h q) : (q₀ ++ enqueued h).Perm (dequeued h ++ lost h ++ q) := by
  induction hh with
  | nil => simp [enqueued, dequeued, lost]
  | enqueue e _ ih =>
    have hstep := ih.append_right [e]
    simpa [← List.append_assoc] using hstep
  | @dequeue h q e _ ih =>
    have hmove : (dequeued h ++ lost h ++ e :: q).Perm (dequeued h ++ [e] ++ lost h ++ q) := by
      have hmid : (lost h ++ e :: q).Perm (e :: (lost h ++ q)) := List.perm_middle
      simpa using hmid.append_left (dequeued h)
    simpa using ih.trans hmove
  | clear _ ih => simpa [List.append_assoc] using ih

end Fifo
