import Mathlib.Data.Finset.Card
import Mathlib.Data.Finset.Insert
import Mathlib.Logic.Function.Basic

/-!
# Thread pools with condition variables

The threads `τ` of a monitor, each outside it, asleep on a condition variable of `κ`, or
woken from one and still to get the lock back. A waiting thread remembers the call of `α`
that it will evaluate again. A pool carries the finite set of its waiting threads, so that
sleepers and woken threads can be counted over an arbitrary type of threads.
-/

namespace Monitor

/-- Where a thread is: outside the monitor, or inside the wait of call `a` on `c`. -/
inductive Phase (κ α : Type) where
  | idle
  | asleep (c : κ) (a : α)
  | woken (c : κ) (a : α)

namespace Phase

variable {κ α : Type} [DecidableEq κ]

def isIdle : Phase κ α → Bool
  | idle => true
  | _ => false

def isAsleepOn (c : κ) : Phase κ α → Bool
  | asleep d _ => d = c
  | _ => false

def isWokenFrom (c : κ) : Phase κ α → Bool
  | woken d _ => d = c
  | _ => false

/-- The effect of `notify_all` on one thread. -/
def notified (c : κ) : Phase κ α → Phase κ α
  | asleep d a => if d = c then woken d a else asleep d a
  | x => x

lemma isAsleepOn_iff (c : κ) (x : Phase κ α) : x.isAsleepOn c = true ↔ ∃ a, x = asleep c a := by
  cases x <;> simp [isAsleepOn]

lemma isWokenFrom_iff (c : κ) (x : Phase κ α) : x.isWokenFrom c = true ↔ ∃ a, x = woken c a := by
  cases x <;> simp [isWokenFrom]

lemma notified_idle_iff (c : κ) (x : Phase κ α) : x.notified c = idle ↔ x = idle := by
  cases x with
  | asleep d a => by_cases h : d = c <;> simp [notified, h]
  | _ => simp [notified]

end Phase

structure Pool (τ κ α : Type) where
  phase : τ → Phase κ α
  waiting : Finset τ
  mem_waiting : ∀ t, t ∈ waiting ↔ phase t ≠ .idle

namespace Pool

variable {τ κ α : Type}

lemma ext_phase {P Q : Pool τ κ α} (h : P.phase = Q.phase) : P = Q := by
  obtain ⟨p, w, hw⟩ := P
  obtain ⟨q, v, hv⟩ := Q
  obtain rfl : p = q := h
  have hwv : w = v := Finset.ext fun t => (hw t).trans (hv t).symm
  subst hwv
  rfl

/-- No thread is inside the monitor. -/
def empty : Pool τ κ α where
  phase _ := .idle
  waiting := ∅
  mem_waiting t := by simp

@[simp] lemma empty_phase (t : τ) : (empty : Pool τ κ α).phase t = .idle := rfl

/-- A test that no thread outside the monitor passes picks out the waiting threads that do. -/
lemma mem_filter_waiting (P : Pool τ κ α) {p : Phase κ α → Bool} (hp : p .idle = false) (t : τ) :
    t ∈ P.waiting.filter (fun u => p (P.phase u)) ↔ p (P.phase t) = true := by
  rw [Finset.mem_filter, P.mem_waiting, and_iff_right_iff_imp]
  intro ht hidle
  rw [hidle, hp] at ht
  cases ht

section Counting

variable [DecidableEq κ]

def sleepers (P : Pool τ κ α) (c : κ) : Finset τ :=
  P.waiting.filter fun t => (P.phase t).isAsleepOn c

def wokenFrom (P : Pool τ κ α) (c : κ) : Finset τ :=
  P.waiting.filter fun t => (P.phase t).isWokenFrom c

lemma mem_sleepers (P : Pool τ κ α) (c : κ) (t : τ) :
    t ∈ P.sleepers c ↔ ∃ a, P.phase t = .asleep c a :=
  (mem_filter_waiting P rfl t).trans (Phase.isAsleepOn_iff c _)

lemma mem_wokenFrom (P : Pool τ κ α) (c : κ) (t : τ) :
    t ∈ P.wokenFrom c ↔ ∃ a, P.phase t = .woken c a :=
  (mem_filter_waiting P rfl t).trans (Phase.isWokenFrom_iff c _)

lemma sleepers_nonempty_iff (P : Pool τ κ α) (c : κ) :
    (P.sleepers c).Nonempty ↔ ∃ t a, P.phase t = .asleep c a :=
  exists_congr fun t => mem_sleepers P c t

lemma wokenFrom_eq_empty {P : Pool τ κ α} (h : ∀ t c a, P.phase t ≠ .woken c a) (c : κ) :
    P.wokenFrom c = ∅ := by
  apply Finset.eq_empty_of_forall_notMem
  intro t ht
  obtain ⟨a, ha⟩ := (mem_wokenFrom _ _ _).mp ht
  exact h t c a ha

@[simp] lemma sleepers_empty (c : κ) : (empty : Pool τ κ α).sleepers c = ∅ := rfl

/-- `notify_all`: every thread asleep on `c` is woken. -/
def wakeAll (P : Pool τ κ α) (c : κ) : Pool τ κ α where
  phase t := (P.phase t).notified c
  waiting := P.waiting
  mem_waiting t := by rw [P.mem_waiting, Ne, Ne, Phase.notified_idle_iff]

@[simp] lemma wakeAll_phase (P : Pool τ κ α) (c : κ) (t : τ) :
    (P.wakeAll c).phase t = (P.phase t).notified c := rfl

@[simp] lemma sleepers_wakeAll (P : Pool τ κ α) (c : κ) : (P.wakeAll c).sleepers c = ∅ := by
  apply Finset.eq_empty_of_forall_notMem
  intro t ht
  obtain ⟨a, ha⟩ := (mem_sleepers _ _ _).mp ht
  cases h : P.phase t with
  | asleep d b => by_cases hd : d = c <;> simp [h, Phase.notified, hd] at ha
  | _ => simp [h, Phase.notified] at ha

lemma wokenFrom_wakeAll_subset (P : Pool τ κ α) (c d : κ) :
    P.wokenFrom d ⊆ (P.wakeAll c).wokenFrom d := by
  intro t ht
  obtain ⟨a, ha⟩ := (mem_wokenFrom _ _ _).mp ht
  exact (mem_wokenFrom _ _ _).mpr ⟨a, by simp [ha, Phase.notified]⟩

/-- With nobody asleep on `c`, `notify_all` does nothing. -/
lemma wakeAll_of_sleepers_empty (P : Pool τ κ α) (c : κ) (h : P.sleepers c = ∅) :
    P.wakeAll c = P := by
  apply ext_phase
  funext t
  cases ht : P.phase t with
  | asleep d a =>
    have hd : d ≠ c := by
      rintro rfl
      have hmem : t ∈ P.sleepers d := (mem_sleepers _ _ _).mpr ⟨a, ht⟩
      simp [h] at hmem
    simp [ht, Phase.notified, hd]
  | _ => simp [ht, Phase.notified]

end Counting

section Assign

variable [DecidableEq τ]

/-- Thread `t` moves to phase `x`. -/
def assign (P : Pool τ κ α) (t : τ) (x : Phase κ α) : Pool τ κ α where
  phase := Function.update P.phase t x
  waiting := if x.isIdle then P.waiting.erase t else insert t P.waiting
  mem_waiting u := by
    by_cases hu : u = t
    · subst hu
      cases x <;> simp [Phase.isIdle]
    · cases x <;> simp [Phase.isIdle, hu, P.mem_waiting]

@[simp] lemma assign_phase_self (P : Pool τ κ α) (t : τ) (x : Phase κ α) :
    (P.assign t x).phase t = x := by
  simp [assign]

lemma assign_phase_of_ne (P : Pool τ κ α) {t u : τ} (x : Phase κ α) (h : u ≠ t) :
    (P.assign t x).phase u = P.phase u := by
  simp [assign, h]

lemma assign_of_phase_eq (P : Pool τ κ α) {t : τ} {x : Phase κ α} (h : P.phase t = x) :
    P.assign t x = P := by
  apply ext_phase
  subst h
  exact Function.update_eq_self t P.phase

lemma filter_waiting_assign (P : Pool τ κ α) {p : Phase κ α → Bool} (hp : p .idle = false)
    (t : τ) (x : Phase κ α) :
    (P.assign t x).waiting.filter (fun u => p ((P.assign t x).phase u)) =
      if p x then insert t (P.waiting.filter fun u => p (P.phase u))
      else (P.waiting.filter fun u => p (P.phase u)).erase t := by
  ext u
  rw [mem_filter_waiting _ hp]
  by_cases hu : u = t
  · subst hu
    by_cases hx : p x = true <;> simp [hx]
  · rw [assign_phase_of_ne P x hu, ← mem_filter_waiting P hp]
    by_cases hx : p x = true <;> simp [hx, hu]

variable [DecidableEq κ]

lemma sleepers_assign (P : Pool τ κ α) (t : τ) (x : Phase κ α) (c : κ) :
    (P.assign t x).sleepers c =
      if x.isAsleepOn c then insert t (P.sleepers c) else (P.sleepers c).erase t :=
  filter_waiting_assign P rfl t x

lemma wokenFrom_assign (P : Pool τ κ α) (t : τ) (x : Phase κ α) (c : κ) :
    (P.assign t x).wokenFrom c =
      if x.isWokenFrom c then insert t (P.wokenFrom c) else (P.wokenFrom c).erase t :=
  filter_waiting_assign P rfl t x

/-- Wakes the thread if it is asleep, by a notification or spuriously. -/
def wake (P : Pool τ κ α) (t : τ) : Pool τ κ α :=
  match P.phase t with
  | .asleep c a => P.assign t (.woken c a)
  | _ => P

omit [DecidableEq κ] in
lemma wake_of_asleep (P : Pool τ κ α) {t : τ} {c : κ} {a : α} (h : P.phase t = .asleep c a) :
    P.wake t = P.assign t (.woken c a) := by
  simp [wake, h]

lemma sleepers_wake_subset (P : Pool τ κ α) (t : τ) (c : κ) :
    (P.wake t).sleepers c ⊆ P.sleepers c := by
  cases h : P.phase t with
  | asleep d a =>
    rw [wake_of_asleep P h, sleepers_assign]
    simpa [Phase.isAsleepOn] using Finset.erase_subset _ _
  | _ => simp [wake, h]

lemma wokenFrom_wake (P : Pool τ κ α) {t : τ} {d : κ} {a : α} (h : P.phase t = .asleep d a)
    (c : κ) : (P.wake t).wokenFrom c =
      if d = c then insert t (P.wokenFrom c) else P.wokenFrom c := by
  have hnot : t ∉ P.wokenFrom c := by
    simp [mem_wokenFrom, h]
  rw [wake_of_asleep P h, wokenFrom_assign]
  by_cases hd : d = c <;> simp [Phase.isWokenFrom, hd, hnot]

lemma card_wokenFrom_wake (P : Pool τ κ α) {t : τ} {d : κ} (h : t ∈ P.sleepers d) (c : κ) :
    ((P.wake t).wokenFrom c).card = (P.wokenFrom c).card + if d = c then 1 else 0 := by
  obtain ⟨a, ha⟩ := (mem_sleepers _ _ _).mp h
  have hnot : t ∉ P.wokenFrom c := by
    simp [mem_wokenFrom, ha]
  rw [wokenFrom_wake P ha]
  by_cases hd : d = c <;> simp [hd, hnot]

end Assign

end Pool

end Monitor
