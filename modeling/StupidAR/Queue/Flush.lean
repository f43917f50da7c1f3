import StupidAR.Queue.Closed

/-!
# Which blocked calls a flush releases

`begin_flush` wakes every blocked call, but a woken call decides only when it gets the lock
back. It returns false exactly if the queue is closed at that moment.
-/

namespace StupidAR

open Monitor

variable {τ T : Type}

/-- What a scheduled step does to the closed flag by itself. -/
def flushEffect? : Event τ (Call T) → Option Bool
  | .enter _ .beginFlush _ => some true
  | .enter _ .endFlush _ => some false
  | _ => none

/-- Whether the queue is closed after the events, by the last `begin_flush` or `end_flush`. -/
def closedAfter (closed : Bool) (evs : List (Event τ (Call T))) : Bool :=
  evs.foldl (fun b ev => (flushEffect? ev).getD b) closed

/-- The call returns false without an effect on the queue. -/
def Released (a : Call T) (s s' : QueueState τ T) (o : Outcome CondVar (Call T) (Result T)) :
    Prop :=
  o = .returns a a.refusal ∧ s'.data = s.data

variable [DecidableEq τ]

omit [DecidableEq τ] in
lemma flushEffect_of_target {s : QueueState τ T} {ev : Event τ (Call T)} {t : τ} {a : Call T}
    {us : List τ} (hr : Ready s ev t a us) (ha : a ≠ .beginFlush) (ha' : a ≠ .endFlush) :
    flushEffect? ev = none := by
  cases hr with
  | enter => cases a <;> simp_all [flushEffect?]
  | resume => rfl

omit [DecidableEq τ] in
/-- A flush call never waits, so it always runs when it is entered. -/
lemma enter_of_flush {s : QueueState τ T} {ev : Event τ (Call T)} {t : τ} {a : Call T}
    {us : List τ} (ht : s.pool.Targeted Call.target) (hr : Ready s ev t a us)
    (ha : a.target = none) : ev = .enter t a us := by
  cases hr with
  | enter => rfl
  | resume hp =>
    have htarget := ht _ _ _ (.inr hp)
    rw [ha] at htarget
    cases htarget

lemma step_flushing {s s' : QueueState τ T} {ev : Event τ (Call T)}
    {o : Outcome CondVar (Call T) (Result T)} (ht : s.pool.Targeted Call.target)
    (h : Step BlockingQueue.call s ev o s') :
    s'.data.flushing = (flushEffect? ev).getD s.data.flushing := by
  cases h with
  | @sleep _ _ a _ hr hb =>
    have htarget := (wait_iff.mp hb).1
    rw [flushEffect_of_target hr (by rintro rfl; cases htarget) (by rintro rfl; cases htarget)]
    rfl
  | wake => rfl
  | exit hr hb _ =>
    cases exit_cases hb with
    | accepted ha =>
      rw [flushEffect_of_target hr (by rintro rfl; cases ha) (by rintro rfl; cases ha)]
      rfl
    | handed ha =>
      rw [flushEffect_of_target hr (by rintro rfl; cases ha) (by rintro rfl; cases ha)]
      rfl
    | refused ha =>
      rw [flushEffect_of_target hr (by rintro rfl; cases ha) (by rintro rfl; cases ha)]
      rfl
    | closed hclosed => simp [enter_of_flush ht hr rfl, flushEffect?, hclosed]
    | closing => simp [enter_of_flush ht hr rfl, flushEffect?]
    | opening => simp [enter_of_flush ht hr rfl, flushEffect?]

lemma run_flushing {size : ℕ} {tr mid : List (QueueTransition τ T)} {s s' : QueueState τ T}
    (h : QueueRun size tr s) (hmid : Run BlockingQueue.call s mid s') :
    s'.data.flushing = closedAfter s.data.flushing (mid.map Transition.event) := by
  induction hmid with
  | nil => rfl
  | @snoc mid m s' ev o hrun hstep ih =>
    have htarget := (reachable_covered (h.append hrun)).2.1
    rw [step_flushing htarget hstep, ih]
    simp [closedAfter]

/-- Every call that is blocked when the queue is closed is woken. -/
lemma closing_wakes {s s' : QueueState τ T} {t u : τ} {us : List τ} {c : CondVar} {a : Call T}
    {o : Outcome CondVar (Call T) (Result T)} (hopen : s.data.flushing = false)
    (hflush : Step BlockingQueue.call s (.enter u .beginFlush us) o s')
    (ht : s.pool.phase t = .asleep c a ∨ s.pool.phase t = .woken c a) :
    s'.pool.phase t = .woken c a ∧ s'.data.flushing = true := by
  have hcall : BlockingQueue.call .beginFlush s.data = BlockingQueue.flush s.data := by
    simp [BlockingQueue.call, BlockingQueue.beginFlush, hopen]
  have hidle := hflush.enter_idle
  have hne : u ≠ t := by
    rintro rfl
    simp [hidle] at ht
  have hphase := hflush.phase_of_ne hne
  obtain ⟨-, P, hd, rfl⟩ := hflush.of_exit (.enter hidle) hcall
  refine ⟨?_, rfl⟩
  have hempty := deliver_all hd (c := c) (by cases c <;> simp)
  rcases hphase with heq | ⟨d, b, hasleep, hwoken⟩
  · rcases ht with ht | ht
    · rw [ht] at heq
      have hmem := (Pool.mem_sleepers _ _ t).mpr ⟨a, heq⟩
      simp [hempty] at hmem
    · rw [heq, ht]
  · rcases ht with ht | ht <;> rw [ht] at hasleep <;> cases hasleep
    exact hwoken

/-- What a woken call does when it gets the lock back: it is released on a closed queue only. -/
lemma resumed_released_iff {s s' : QueueState τ T} {t : τ} {c : CondVar} {a : Call T}
    {ev : Event τ (Call T)} {o : Outcome CondVar (Call T) (Result T)}
    (ht : s.pool.phase t = .woken c a) (htarget : a.target = some c) (hev : ev.thread = t)
    (h : Step BlockingQueue.call s ev o s') : Released a s s' o ↔ s.data.flushing = true := by
  have hcall : ∀ {b : Call T} {us : List τ}, Ready s ev t b us → b = a := by
    intro b us hr
    cases hr with
    | enter hp => simp [ht] at hp
    | resume hp =>
      rw [ht] at hp
      cases hp
      rfl
  cases h with
  | sleep hr hb =>
    obtain ⟨_, hopen, _⟩ := wait_iff.mp hb
    rw [hopen]
    constructor
    · rintro ⟨ho, _⟩
      cases ho
    · intro hf
      cases hf
  | @wake u _ _ hp =>
    have hut : u = t := hev
    rw [hut, ht] at hp
    cases hp
  | @exit _ u b _ _ _ _ _ hr hb _ =>
    obtain rfl : t = u := hev.symm.trans hr.thread_eq
    obtain rfl : a = b := (hcall hr).symm
    cases exit_cases hb with
    | accepted ha hopen => cases a <;> cases ha <;> simp [Released, hopen, Call.refusal]
    | handed ha hopen _ =>
      cases a with
      | take out =>
        cases ha
        simp [Released, hopen rfl, Call.refusal]
      | poll => cases htarget
      | _ => cases ha
    | refused _ hguard =>
      rw [htarget] at hguard
      have hclosed : s.data.flushing = true := by simpa using hguard
      simp [Released, hclosed]
    | closed => cases htarget
    | closing => cases htarget
    | opening => cases htarget

/-- A call that is blocked when a `begin_flush` closes the queue is released by its next step
exactly if the schedule up to that step does not leave the queue open again. -/
theorem flush_releases_iff {size : ℕ} {tr mid : List (QueueTransition τ T)}
    {s s₁ s₂ s₃ : QueueState τ T} {t u : τ} {us : List τ} {c : CondVar} {a : Call T}
    {ev : Event τ (Call T)} {o o' : Outcome CondVar (Call T) (Result T)}
    (h : QueueRun size tr s) (ht : s.pool.phase t = .asleep c a ∨ s.pool.phase t = .woken c a)
    (hopen : s.data.flushing = false)
    (hflush : Step BlockingQueue.call s (.enter u .beginFlush us) o s₁)
    (hmid : Run BlockingQueue.call s₁ mid s₂) (hother : ∀ x ∈ mid, x.event.thread ≠ t)
    (hnext : Step BlockingQueue.call s₂ ev o' s₃) (hev : ev.thread = t) :
    Released a s₂ s₃ o' ↔ closedAfter true (mid.map Transition.event) = true := by
  obtain ⟨hwoken, hclosed⟩ := closing_wakes hopen hflush ht
  have htarget : a.target = some c := (reachable_covered h).2.1 t c a ht
  have hrun := h.snoc hflush
  have hflag := run_flushing hrun hmid
  rw [hclosed] at hflag
  rw [resumed_released_iff (hmid.woken_of_ne hwoken hother) htarget hev hnext, hflag]

/-- A putter blocked on a full queue of capacity one gets the lock back while it is closed. -/
theorem flush_releases_putter :
    ∃ (s s' : QueueState ℕ ℕ) (o : Outcome CondVar (Call ℕ) (Result ℕ)),
      Released (.put 8) s s' o ∧ s.pool.phase 1 = .woken .notFull (.put 8) := by
  have hrun : QueueRun 1 _ (_ : QueueState ℕ ℕ) :=
    exec_run [.enter 0 (.put 7) [], .enter 1 (.put 8) []] rfl
  exact ⟨_, _, _, (flush_releases_iff hrun (t := 1) (.inl rfl) rfl
    (step_cases rfl : Step BlockingQueue.call _ (.enter 2 .beginFlush []) _ _)
    (exec_run [.enter 0 (.offer 9) []] rfl) (by decide)
    (step_cases rfl : Step BlockingQueue.call _ (.resume 1 []) _ _) rfl).mpr rfl, rfl⟩

/-- Not every blocked call is released: `end_flush` runs before the woken threads get the lock
back, the blocked `put` then adds its element and returns true, and the blocked `take` of a
second queue goes back to waiting. -/
theorem flush_reopened_not_released :
    (∃ (tr mid : List (QueueTransition ℕ ℕ)) (s s₁ s₂ s₃ : QueueState ℕ ℕ)
      (o o' : Outcome CondVar (Call ℕ) (Result ℕ)),
      QueueRun 1 tr s ∧ s.pool.phase 1 = .asleep .notFull (.put 8) ∧ s.data.flushing = false ∧
      Step BlockingQueue.call s (.enter 2 .beginFlush []) o s₁ ∧
      Run BlockingQueue.call s₁ mid s₂ ∧ (∀ x ∈ mid, x.event.thread ≠ 1) ∧
      Step BlockingQueue.call s₂ (.resume 1 []) o' s₃ ∧
      o' = .returns (.put 8) (.stored true) ∧ s₃.data.items = [8]) ∧
    (∃ (tr mid : List (QueueTransition ℕ ℕ)) (s s₁ s₂ s₃ : QueueState ℕ ℕ)
      (o o' : Outcome CondVar (Call ℕ) (Result ℕ)),
      QueueRun 1 tr s ∧ s.pool.phase 1 = .asleep .notEmpty (.take 0) ∧ s.data.flushing = false ∧
      Step BlockingQueue.call s (.enter 2 .beginFlush []) o s₁ ∧
      Run BlockingQueue.call s₁ mid s₂ ∧ (∀ x ∈ mid, x.event.thread ≠ 1) ∧
      Step BlockingQueue.call s₂ (.resume 1 []) o' s₃ ∧ o' = .waits (.take 0) .notEmpty) := by
  constructor
  · refine ⟨_, _, _, _, _, _, _, _,
      exec_run [.enter 0 (.put 7) [], .enter 1 (.put 8) []] rfl, rfl, rfl,
      step_cases rfl, exec_run [.enter 2 .endFlush []] rfl, by decide,
      step_cases rfl, rfl, rfl⟩
  · refine ⟨_, _, _, _, _, _, _, _, exec_run [.enter 1 (.take 0) []] rfl, rfl, rfl,
      step_cases rfl, exec_run [.enter 2 .endFlush []] rfl, by decide,
      step_cases rfl, rfl⟩

end StupidAR
