import Mathlib.Logic.Relation

/-!
# Outlines of lock-held programs

A thread inside a lock has a list of actions left. An outline gives each action an assertion,
which may speak of the shared data and of what is left behind the action, and the last action
a postcondition that holds whenever nobody is inside the lock. What the other threads do to
the data meanwhile must leave the assertions true.
-/

namespace Monitor

variable {A C : Type}

/-- From the data `c`, each of the actions finds its assertion and the last leaves `post`. -/
def Outline (effect : A → C → C) (pre : A → List A → C → Prop) (post : C → Prop) :
    List A → C → Prop
  | [], c => post c
  | a :: l, c => pre a l c ∧ Outline effect pre post l (effect a c)

namespace Outline

variable {effect : A → C → C} {pre : A → List A → C → Prop} {post : C → Prop} {a : A} {l : List A}
  {c c' : C}

@[simp] lemma nil_iff : Outline effect pre post [] c ↔ post c := Iff.rfl

@[simp] lemma cons_iff :
    Outline effect pre post (a :: l) c ↔ pre a l c ∧ Outline effect pre post l (effect a c) :=
  Iff.rfl

/-- Changes of the data by others that keep every assertion keep the outline. -/
lemma stable {R : C → C → Prop} (heffect : ∀ a c c', R c c' → R (effect a c) (effect a c'))
    (hpre : ∀ a l c c', R c c' → pre a l c → pre a l c') (hpost : ∀ c c', R c c' → post c → post c')
    (hR : R c c') (h : Outline effect pre post l c) : Outline effect pre post l c' := by
  induction l generalizing c c' with
  | nil => exact hpost c c' hR h
  | cons a l ih => exact ⟨hpre a l c c' hR h.1, ih (heffect a c c' hR) h.2⟩

end Outline

/-- What the initial state has and every step keeps holds of all that is reached. -/
lemma invariant_of_step {S : Type} {step : S → S → Prop} {I : S → Prop} {s₀ s : S} (h₀ : I s₀)
    (hstep : ∀ s s', step s s' → I s → I s') (h : Relation.ReflTransGen step s₀ s) : I s := by
  induction h with
  | refl => exact h₀
  | tail _ hs ih => exact hstep _ _ hs ih

/-- A property that every step keeps in the presence of an invariant. -/
lemma invariant_of_step_of {S : Type} {step : S → S → Prop} {I J : S → Prop} {s₀ s : S}
    (hI : ∀ s, Relation.ReflTransGen step s₀ s → I s) (h₀ : J s₀)
    (hstep : ∀ s s', step s s' → I s → J s → J s') (h : Relation.ReflTransGen step s₀ s) :
    J s := by
  induction h with
  | refl => exact h₀
  | tail hr hs ih => exact hstep _ _ hs (hI _ hr) ih

end Monitor
