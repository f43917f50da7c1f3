import Mathlib.Algebra.BigOperators.Ring.Finset
import Mathlib.Data.Fintype.Card
import StupidAR.Monitor.Linearizable

/-!
# The effort of a run

A thread gets the lock back only after it was woken, and it is woken by a signal of a call
that returned or spuriously. Hence the calls that returned pay for all the evaluations that
ended in another wait.
-/

namespace Monitor

variable {σ τ κ α ρ : Type}

namespace Phase

def isWoken : Phase κ α → Bool
  | woken _ _ => true
  | _ => false

end Phase

def Event.isResume : Event τ α → Bool
  | resume _ _ => true
  | _ => false

def Event.isEnter : Event τ α → Bool
  | enter _ _ _ => true
  | _ => false

def Signal.isOne : Signal κ → Bool
  | one _ => true
  | all _ => false

/-- The most threads, out of `n`, that the signals can wake. -/
def reach (n : ℕ) (signals : List (Signal κ)) : ℕ :=
  if signals.all Signal.isOne then signals.length else n

/-- What the call that a step ends may cost, in threads woken. -/
def Outcome.charge (cost : α → ℕ) : Outcome κ α ρ → ℕ
  | returns a _ => cost a
  | _ => 0

namespace Pool

/-- The threads that compete for the lock after a wake-up. -/
def woken (P : Pool τ κ α) : Finset τ :=
  P.waiting.filter fun t => (P.phase t).isWoken

lemma mem_woken (P : Pool τ κ α) (t : τ) : t ∈ P.woken ↔ ∃ c a, P.phase t = .woken c a := by
  simp only [woken, Finset.mem_filter, P.mem_waiting]
  cases P.phase t <;> simp [Phase.isWoken]

lemma woken_eq_empty {P : Pool τ κ α} (h : ∀ t, P.phase t = .idle) : P.woken = ∅ := by
  apply Finset.eq_empty_of_forall_notMem
  intro t ht
  obtain ⟨c, a, ha⟩ := (mem_woken P t).mp ht
  simp [h t] at ha

variable [DecidableEq τ]

lemma woken_assign (P : Pool τ κ α) (t : τ) (x : Phase κ α) :
    (P.assign t x).woken = if x.isWoken then insert t P.woken else P.woken.erase t := by
  ext u
  rw [mem_woken]
  by_cases hu : u = t
  · subst hu
    cases x <;> simp [Phase.isWoken]
  · rw [assign_phase_of_ne P x hu, ← mem_woken]
    cases hx : x.isWoken <;> simp [hu]

lemma card_woken_assign_le (P : Pool τ κ α) (t : τ) (x : Phase κ α) :
    (P.assign t x).woken.card ≤ P.woken.card + if x.isWoken then 1 else 0 := by
  rw [woken_assign]
  cases x.isWoken with
  | true => exact Finset.card_insert_le _ _
  | false => exact Finset.card_le_card (Finset.erase_subset _ _)

/-- A woken thread that gets the lock is woken no more. -/
lemma card_woken_assign_of_woken (P : Pool τ κ α) {t : τ} {c : κ} {a : α}
    (h : P.phase t = .woken c a) {x : Phase κ α} (hx : x.isWoken = false) :
    (P.assign t x).woken.card + 1 = P.woken.card := by
  have hmem : t ∈ P.woken := (mem_woken P t).mpr ⟨c, a, h⟩
  rw [woken_assign, hx]
  exact Finset.card_erase_add_one hmem

variable [DecidableEq κ]

lemma card_woken_deliver_ones {signals : List (Signal κ)} {us : List τ} {P Q : Pool τ κ α}
    (hones : ∀ signal ∈ signals, signal.isOne = true) (h : deliver signals us P = some Q) :
    Q.woken.card ≤ P.woken.card + signals.length := by
  induction signals, us, P using deliver.induct with
  | case1 P =>
    simp only [deliver, Option.some.injEq] at h
    simp [h]
  | case2 => simp [deliver] at h
  | case3 c signals us P =>
    cases hones _ (List.mem_cons_self ..)
  | case4 c signals us P hc ih =>
    have hrest := ih (fun x hx => hones x (List.mem_cons_of_mem _ hx))
      (by simpa [deliver, hc] using h)
    rw [List.length_cons]
    omega
  | case5 c signals P hc => simp [deliver, hc] at h
  | case6 c signals P hc u us hu ih =>
    have hrest := ih (fun x hx => hones x (List.mem_cons_of_mem _ hx))
      (by simpa [deliver, hc, hu] using h)
    obtain ⟨a, ha⟩ := (mem_sleepers _ _ _).mp hu
    have hwake := card_woken_assign_le P u (.woken c a)
    rw [← wake_of_asleep P ha] at hwake
    simp only [Phase.isWoken, if_true] at hwake
    rw [List.length_cons]
    omega
  | case7 c signals P hc u us hu => simp [deliver, hc, hu] at h

lemma card_woken_deliver [Fintype τ] {signals : List (Signal κ)} {us : List τ} {P Q : Pool τ κ α}
    (h : deliver signals us P = some Q) :
    Q.woken.card ≤ P.woken.card + reach (Fintype.card τ) signals := by
  unfold reach
  split
  · rename_i hones
    exact card_woken_deliver_ones (List.all_eq_true.mp hones) h
  · have hall := Finset.card_le_univ Q.woken
    omega

end Pool

section Runs

variable [Fintype τ] [DecidableEq τ] [DecidableEq κ] {body : α → σ → Section σ κ ρ} {cost : α → ℕ}

/-- Each wake-up that a step uses or adds is accounted for. -/
lemma Step.woken_card
    (hcost : ∀ a d d' signals r, body a d = .exit d' signals r →
      reach (Fintype.card τ) signals ≤ cost a)
    {s s' : State σ τ κ α} {ev : Event τ α} {o : Outcome κ α ρ} (h : Step body s ev o s') :
    s'.pool.woken.card + (if ev.isResume then 1 else 0) ≤
      s.pool.woken.card + (if ev.isSpurious then 1 else 0) + o.charge cost := by
  cases h with
  | @sleep _ t a c hr hb =>
    cases hr with
    | enter hp =>
      have hle := Pool.card_woken_assign_le s.pool t (.asleep c a)
      simpa [Event.isResume, Event.isSpurious, Outcome.charge, Phase.isWoken] using hle
    | resume hp =>
      have heq := Pool.card_woken_assign_of_woken s.pool hp (x := .asleep c a) rfl
      simp [Event.isResume, Event.isSpurious, Outcome.charge, heq]
  | @exit _ t a us d signals r P hr hb hd =>
    have hwake := Pool.card_woken_deliver hd
    have hreach := hcost _ _ _ _ _ hb
    cases hr with
    | enter hp =>
      have hle := Pool.card_woken_assign_le s.pool t .idle
      simp only [Phase.isWoken, Bool.false_eq_true, if_false] at hle
      simp only [Event.isResume, Event.isSpurious, Outcome.charge, Bool.false_eq_true, if_false]
      omega
    | resume hp =>
      have heq := Pool.card_woken_assign_of_woken s.pool hp (x := .idle) rfl
      simp only [Event.isResume, Event.isSpurious, Outcome.charge, Bool.false_eq_true, if_false,
        if_true]
      omega
  | @wake t c a hp =>
    have hle := Pool.card_woken_assign_le s.pool t (.woken c a)
    simpa [Event.isResume, Event.isSpurious, Outcome.charge, Phase.isWoken] using hle

/-- The calls that returned and the spurious wake-ups bound how often a thread got the lock
back. -/
theorem Run.resumes_le
    (hcost : ∀ a d d' signals r, body a d = .exit d' signals r →
      reach (Fintype.card τ) signals ≤ cost a)
    {s₀ s : State σ τ κ α} {tr : List (Transition σ τ κ α ρ)} (h : Run body s₀ tr s) :
    s.pool.woken.card + tr.countP (fun x => x.event.isResume) ≤
      s₀.pool.woken.card + tr.countP (fun x => x.event.isSpurious) +
        ((returned tr).map fun p => cost p.1).sum := by
  induction h with
  | nil => simp [returned]
  | @snoc tr s s' ev o _ hstep ih =>
    have hone := hstep.woken_card hcost
    have hreturned : ((returned? (⟨s, ev, o, s'⟩ : Transition σ τ κ α ρ)).toList.map
        fun p => cost p.1).sum = o.charge cost := by
      cases o <;> simp [returned?, Outcome.charge]
    rw [returned_concat, List.map_append, List.sum_append, hreturned, List.countP_append,
      List.countP_append, List.countP_singleton, List.countP_singleton]
    dsimp only at hone ⊢
    omega

omit [Fintype τ] [DecidableEq τ] [DecidableEq κ] in
/-- Each step is an entry, a return of the lock or a spurious wake-up. -/
lemma length_eq_events (tr : List (Transition σ τ κ α ρ)) :
    tr.length = tr.countP (fun x => x.event.isEnter) + tr.countP (fun x => x.event.isResume) +
      tr.countP (fun x => x.event.isSpurious) := by
  induction tr with
  | nil => rfl
  | cons x tr ih =>
    have hone : (if x.event.isEnter then 1 else 0) + (if x.event.isResume then 1 else 0) +
        (if x.event.isSpurious then 1 else 0) = 1 := by
      cases x.event <;> rfl
    rw [List.countP_cons, List.countP_cons, List.countP_cons, List.length_cons]
    omega

end Runs

end Monitor
