import Mathlib.Data.List.Basic

/-!
# Protocols of notices

A protocol says which notices may follow which: a partial function from a state and a notice
to the next state. A word of notices follows the protocol when the function is defined all
the way.
-/

namespace Protocol

variable {Q N : Type}

/-- The notices `l`, sent from state `q`, follow the protocol and leave it in `q'`. -/
def Follows (next : Q → N → Option Q) (q : Q) (l : List N) (q' : Q) : Prop :=
  l.foldlM next q = some q'

variable {next : Q → N → Option Q} {q q' q'' : Q} {l l' : List N} {n : N}

@[simp] lemma follows_nil : Follows next q [] q' ↔ q = q' := by
  simp [Follows]

lemma follows_cons : Follows next q (n :: l) q' ↔ ∃ p, next q n = some p ∧ Follows next p l q' := by
  simp [Follows, List.foldlM_cons, Option.bind_eq_some_iff]

lemma follows_append :
    Follows next q (l ++ l') q' ↔ ∃ p, Follows next q l p ∧ Follows next p l' q' := by
  simp [Follows, List.foldlM_append, Option.bind_eq_some_iff]

lemma Follows.concat (h : Follows next q l q') (hn : next q' n = some q'') :
    Follows next q (l ++ [n]) q'' :=
  follows_append.mpr ⟨q', h, by simpa [follows_cons] using hn⟩

/-- A property of the state that only a notice in `E` can end. -/
lemma Follows.persists {P : Q → Prop} {E : N → Prop} (h : Follows next q l q') (hq : P q)
    (hnext : ∀ q n p, P q → ¬ E n → next q n = some p → P p) (hl : ∀ n ∈ l, ¬ E n) :
    P q' := by
  induction l generalizing q with
  | nil => rwa [← follows_nil.mp h]
  | cons n l ih =>
    obtain ⟨p, hp, hrest⟩ := follows_cons.mp h
    have hPp : P p := hnext q n p hq (hl n List.mem_cons_self) hp
    exact ih hrest hPp fun m hm => hl m (List.mem_cons_of_mem n hm)

/-- Between a notice that brings `P` about and one that `P` forbids there is one that ends
`P`. -/
lemma Follows.between {P : Q → Prop} {E : N → Prop} {l₁ l₂ l₃ : List N} {a b : N}
    (h : Follows next q (l₁ ++ a :: l₂ ++ b :: l₃) q')
    (ha : ∀ q p, next q a = some p → P p) (hb : ∀ q, P q → next q b = none)
    (hnext : ∀ q n p, P q → ¬ E n → next q n = some p → P p) : ∃ n ∈ l₂, E n := by
  by_contra hno
  push Not at hno
  obtain ⟨p₂, hp₂, hrest⟩ := follows_append.mp h
  obtain ⟨p₁, -, hmid⟩ := follows_append.mp hp₂
  obtain ⟨p, hp, hl₂⟩ := follows_cons.mp hmid
  have hP : P p₂ := hl₂.persists (ha p₁ p hp) hnext hno
  obtain ⟨p₃, hp₃, -⟩ := follows_cons.mp hrest
  rw [hb p₂ hP] at hp₃
  cases hp₃

end Protocol
