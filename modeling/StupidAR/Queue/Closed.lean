import StupidAR.Queue.BlockingQueue

/-!
# Bounds, the closed state, and wake-ups of the blocking queue

The data invariant of `BlockingQueue`, and the accounting of its notifications: an open
queue lets through as many takers as it has items and as many putters as it has free
slots, and a closed one lets everybody through.
-/

namespace StupidAR

open Monitor

variable {τ T : Type}

/-- A queue of capacity `size` between two lock-held sections. -/
structure BlockingQueue.Sound (size : ℕ) (q : BlockingQueue T) : Prop where
  size_eq : q.size = size
  bounded : q.items.length ≤ size
  closed_empty : q.flushing = true → q.items = []

lemma BlockingQueue.sound_ofSize (size : ℕ) : (ofSize size : BlockingQueue T).Sound size where
  size_eq := rfl
  bounded := Nat.zero_le _
  closed_empty := fun h => by cases h

/-- `put` and `offer` compare the length with `m_size` for equality only; below the capacity
that leaves a free slot. -/
lemma BlockingQueue.Sound.room {size : ℕ} {q : BlockingQueue T} (h : q.Sound size)
    (hroom : q.items.length ≠ q.size) : q.items.length < size := by
  have hb := h.bounded
  have hs := h.size_eq
  omega

theorem sound_keeps (size : ℕ) :
    Keeps (BlockingQueue.call (T := T)) (BlockingQueue.Sound size) := by
  intro a q d signals r hq h
  cases exit_cases h with
  | accepted ha hopen hroom =>
    have hlt := hq.room hroom
    refine ⟨hq.size_eq, ?_, fun hf => ?_⟩
    · simpa using hlt
    · exact absurd hf (by simp [hopen])
  | handed ha hopen hitems =>
    have hb := hq.bounded
    rw [hitems, List.length_cons] at hb
    refine ⟨hq.size_eq, by simp only; omega, fun hf => ?_⟩
    have hempty := hq.closed_empty hf
    rw [hitems] at hempty
    cases hempty
  | refused => exact hq
  | closed => exact hq
  | closing => exact ⟨hq.size_eq, Nat.zero_le _, fun _ => rfl⟩
  | opening => exact ⟨hq.size_eq, hq.bounded, fun hf => by cases hf⟩

/-- How many of the threads waiting on a condition variable the queue lets through. -/
def BlockingQueue.supply : CondVar → BlockingQueue T → ℕ∞
  | .notFull, q => if q.flushing then ⊤ else (q.size - q.items.length : ℕ)
  | .notEmpty, q => if q.flushing then ⊤ else (q.items.length : ℕ)

lemma BlockingQueue.supply_closed {q : BlockingQueue T} (h : q.flushing = true) (c : CondVar) :
    q.supply c = ⊤ := by
  cases c <;> simp [supply, h]

/-- What an open queue has for the threads waiting on a condition variable. -/
def BlockingQueue.available (q : BlockingQueue T) : CondVar → ℕ
  | .notFull => q.size - q.items.length
  | .notEmpty => q.items.length

@[simp] lemma BlockingQueue.available_notFull (q : BlockingQueue T) :
    q.available .notFull = q.size - q.items.length :=
  rfl

@[simp] lemma BlockingQueue.available_notEmpty (q : BlockingQueue T) :
    q.available .notEmpty = q.items.length :=
  rfl

lemma BlockingQueue.supply_open {q : BlockingQueue T} (h : q.flushing = false) (c : CondVar) :
    q.supply c = q.available c := by
  cases c <;> simp [supply, h]

lemma Call.target_of_element {a : Call T} {e : T} (h : a.element? = some e) :
    a.target ≠ some .notEmpty := by
  cases a <;> simp_all [Call.element?, Call.target]

lemma Call.target_of_out {a : Call T} {out : T} (h : a.out? = some out) :
    a.target ≠ some .notFull := by
  cases a <;> simp_all [Call.out?, Call.target]

/-- An accepted element takes a free slot and notifies one taker of one more item. -/
lemma supply_accepted {size : ℕ} {q : BlockingQueue T} (hq : q.Sound size) {a : Call T} {e : T}
    (ha : a.element? = some e) (hopen : q.flushing = false)
    (hroom : q.items.length ≠ q.size) (c : CondVar) :
    ({ q with items := q.items ++ [e] } : BlockingQueue T).supply c +
        (if a.target = some c then 1 else 0) ≤
      q.supply c + [Signal.one CondVar.notEmpty].count (.one c) := by
  have hlt := hq.room hroom
  have hs := hq.size_eq
  cases c with
  | notFull =>
    rw [BlockingQueue.supply_open (by exact hopen), BlockingQueue.supply_open hopen]
    have hk : (if a.target = some .notFull then 1 else 0) ≤ 1 := by split <;> omega
    have hnat : q.size - (q.items.length + 1) + (if a.target = some .notFull then 1 else 0) ≤
        q.size - q.items.length := by omega
    simpa using (by exact_mod_cast hnat : _ ≤ ((q.size - q.items.length : ℕ) : ℕ∞))
  | notEmpty =>
    rw [BlockingQueue.supply_open (by exact hopen), BlockingQueue.supply_open hopen]
    simp [Call.target_of_element ha]

/-- A retrieved element leaves a free slot, for which one putter is notified. -/
lemma supply_handed {size : ℕ} {q : BlockingQueue T} (hq : q.Sound size) {a : Call T}
    {out e : T} {rest : List T} (ha : a.out? = some out) (hitems : q.items = e :: rest)
    (c : CondVar) :
    ({ q with items := rest } : BlockingQueue T).supply c +
        (if a.target = some c then 1 else 0) ≤
      q.supply c + [Signal.one CondVar.notFull].count (.one c) := by
  have hopen : q.flushing = false := by
    by_contra hf
    have hempty := hq.closed_empty (by simpa using hf)
    rw [hitems] at hempty
    cases hempty
  have hb := hq.bounded
  have hs := hq.size_eq
  cases c with
  | notFull =>
    rw [BlockingQueue.supply_open (by exact hopen), BlockingQueue.supply_open hopen]
    have hnat : q.size - rest.length ≤ q.size - q.items.length + 1 := by
      rw [hitems, List.length_cons]
      omega
    have hcast : ((q.size - rest.length : ℕ) : ℕ∞) ≤ ((q.size - q.items.length : ℕ) : ℕ∞) + 1 := by
      exact_mod_cast hnat
    simpa [Call.target_of_out ha] using hcast
  | notEmpty =>
    rw [BlockingQueue.supply_open (by exact hopen), BlockingQueue.supply_open hopen]
    have hk : (if a.target = some .notEmpty then 1 else 0) ≤ 1 := by split <;> omega
    have hnat : rest.length + (if a.target = some .notEmpty then 1 else 0) ≤ q.items.length := by
      rw [hitems, List.length_cons]
      omega
    simpa using (by exact_mod_cast hnat : _ ≤ ((q.items.length : ℕ) : ℕ∞))

theorem queue_accounted (size : ℕ) :
    Accounted (BlockingQueue.call (T := T)) (BlockingQueue.Sound size) Call.target
      BlockingQueue.supply where
  keeps := sound_keeps size
  waits_target := fun _ _ _ h => (wait_iff.mp h).1
  wait_exhausted := by
    intro a q c _ h
    obtain ⟨_, hopen, hfull, hempty⟩ := wait_iff.mp h
    cases c with
    | notFull => simp [BlockingQueue.supply_open hopen, hfull rfl]
    | notEmpty => simp [BlockingQueue.supply_open hopen, hempty rfl]
  exit_balance := by
    intro a q d signals r hq h c
    cases exit_cases h with
    | accepted ha hopen hroom => exact .inr (supply_accepted hq ha hopen hroom c)
    | handed ha _ hitems => exact .inr (supply_handed hq ha hitems c)
    | refused _ hguard =>
      rcases hguard with hclosed | htarget
      · exact .inr (by simp [BlockingQueue.supply_closed hclosed])
      · exact .inr (by simp [htarget])
    | closed => exact .inr (by simp [Call.target])
    | closing => exact .inl (by cases c <;> simp)
    | opening =>
      cases hf : q.flushing with
      | true => exact .inr (by simp [BlockingQueue.supply_closed hf])
      | false =>
        have hd : ({ q with flushing := false } : BlockingQueue T) = q := by rw [← hf]
        exact .inr (by simp [hd, Call.target])

/-- Inside `take`, woken from `m_not_empty`, and still without the lock. -/
def pendingTake : Phase CondVar (Call T) → Bool
  | .woken .notEmpty (.take _) => true
  | _ => false

/-- Inside `put`, woken from `m_not_full`, and still without the lock. -/
def pendingPut : Phase CondVar (Call T) → Bool
  | .woken .notFull (.put _) => true
  | _ => false

def pendingTakers (s : QueueState τ T) : Finset τ :=
  s.pool.waiting.filter fun t => pendingTake (s.pool.phase t)

def pendingPutters (s : QueueState τ T) : Finset τ :=
  s.pool.waiting.filter fun t => pendingPut (s.pool.phase t)

/-- Inside the call that waits on `c`, woken, and still without the lock. -/
def pendingOn : CondVar → Phase CondVar (Call T) → Bool
  | .notFull => pendingPut
  | .notEmpty => pendingTake

/-- Only takers wait on `m_not_empty`, and only putters on `m_not_full`. -/
lemma pending_eq {s : QueueState τ T} (h : s.pool.Targeted Call.target) (c : CondVar) :
    (s.pool.waiting.filter fun t => pendingOn c (s.pool.phase t)) = s.pool.wokenFrom c := by
  apply Finset.filter_congr
  intro t _
  cases hp : s.pool.phase t with
  | idle => cases c <;> simp [Phase.isWokenFrom, pendingOn, pendingTake, pendingPut]
  | asleep d a => cases c <;> simp [Phase.isWokenFrom, pendingOn, pendingTake, pendingPut]
  | woken d a =>
    have htarget := h t d a (.inr hp)
    cases a <;> cases d <;> cases c <;>
      simp_all [Call.target, Phase.isWokenFrom, pendingOn, pendingTake, pendingPut]

section Reachable

variable [DecidableEq τ] {size : ℕ} {tr : List (QueueTransition τ T)} {s : QueueState τ T}

theorem reachable_covered (h : QueueRun size tr s) :
    s.data.Sound size ∧ s.pool.Targeted Call.target ∧ Covered BlockingQueue.supply s :=
  h.covered (queue_accounted size) (BlockingQueue.sound_ofSize size)

lemma closed_no_sleepers (h : QueueRun size tr s) (hclosed : s.data.flushing = true)
    (c : CondVar) : s.pool.sleepers c = ∅ :=
  (reachable_covered h).2.2.sleepers_empty (BlockingQueue.supply_closed hclosed c)

omit [DecidableEq τ] in
lemma call_closed {q : BlockingQueue T} (hclosed : q.flushing = true) (hempty : q.items = [])
    {a : Call T} (ha : a.transfers = true) : q.call a = .exit q [] a.refusal := by
  cases a with
  | put e => simp [BlockingQueue.call, BlockingQueue.put, waitUntil, hclosed, Call.refusal]
  | offer e => simp [BlockingQueue.call, BlockingQueue.offer, hclosed, Call.refusal]
  | take out => simp [BlockingQueue.call, BlockingQueue.take, waitUntil, hclosed, Call.refusal]
  | poll out => simp [BlockingQueue.call, BlockingQueue.poll, hempty, Call.refusal]
  | beginFlush => cases ha
  | endFlush => cases ha

/-- With nobody asleep, flushing a closed queue again would change nothing. -/
lemma evaluate_flush_closed (h : QueueRun size tr s) (hclosed : s.data.flushing = true) {t : τ}
    (ht : s.pool.phase t = .idle) (us : List τ) :
    evaluate (fun _ => BlockingQueue.flush) s t .beginFlush us =
      evaluate BlockingQueue.call s t .beginFlush us := by
  have hdata : ({ s.data with flushing := true, items := [] } : BlockingQueue T) = s.data := by
    have hempty := (reachable_covered h).1.closed_empty hclosed
    rw [← hclosed, ← hempty]
  have hcall : BlockingQueue.call .beginFlush s.data = .exit s.data [] .done := by
    simp [BlockingQueue.call, BlockingQueue.beginFlush, hclosed]
  have hwake : ∀ c, s.pool.wakeAll c = s.pool := fun c =>
    Pool.wakeAll_of_sleepers_empty _ _ (closed_no_sleepers h hclosed c)
  unfold evaluate
  rw [hcall]
  simp only [BlockingQueue.flush, deliver, hdata, Pool.assign_of_phase_eq _ ht, hwake]

/-- In every reachable state the queue is within its capacity, and a closed queue is empty
with nobody asleep. So on a closed queue the transferring calls return false at once, and
the body of `begin_flush` behind its early return would change nothing. -/
theorem bounded_and_closed (h : QueueRun size tr s) :
    s.data.items.length ≤ s.data.size ∧ s.data.size = size ∧
    (s.data.flushing = true →
      (s.data.items = [] ∧ ∀ t c a, s.pool.phase t ≠ .asleep c a) ∧
      (∀ ev t a us, Ready s ev t a us → a.transfers = true →
        (∀ o s', Step BlockingQueue.call s ev o s' →
          o = .returns a a.refusal ∧ s'.data = s.data) ∧
        (us = [] → ∃ s', Step BlockingQueue.call s ev (.returns a a.refusal) s')) ∧
      (∀ t us, s.pool.phase t = .idle →
        evaluate (fun _ => BlockingQueue.flush) s t .beginFlush us =
          evaluate BlockingQueue.call s t .beginFlush us ∧
        evaluate (fun _ => BlockingQueue.flush) s t .beginFlush [] =
          some (s, .returns .beginFlush .done))) := by
  obtain ⟨hsound, _, _⟩ := reachable_covered h
  refine ⟨by rw [hsound.size_eq]; exact hsound.bounded, hsound.size_eq, fun hclosed => ?_⟩
  have hempty := hsound.closed_empty hclosed
  refine ⟨⟨hempty, ?_⟩, ?_, ?_⟩
  · intro t c a ht
    have hmem : t ∈ s.pool.sleepers c := (Pool.mem_sleepers _ _ _).mpr ⟨a, ht⟩
    simp [closed_no_sleepers h hclosed c] at hmem
  · intro ev t a us hr ha
    have hcall := call_closed hclosed hempty ha
    refine ⟨?_, ?_⟩
    · intro o s' hstep
      obtain ⟨rfl, P, -, rfl⟩ := hstep.of_exit hr hcall
      exact ⟨rfl, rfl⟩
    · rintro rfl
      exact ⟨_, .exit hr hcall rfl⟩
  · intro t us ht
    refine ⟨evaluate_flush_closed h hclosed ht us, ?_⟩
    rw [evaluate_flush_closed h hclosed ht]
    simp [evaluate, BlockingQueue.call, BlockingQueue.beginFlush, hclosed, deliver,
      Pool.assign_of_phase_eq _ ht]

/-- A flush of a full queue of capacity one, with a putter woken by it. -/
theorem bounded_and_closed_flushed :
    ∃ (tr : List (QueueTransition ℕ ℕ)) (s : QueueState ℕ ℕ),
      QueueRun 1 tr s ∧ s.pool.phase 1 = .woken .notFull (.put 8) ∧
      s.data.items = [] ∧ ∀ t c a, s.pool.phase t ≠ .asleep c a := by
  have hrun : QueueRun 1 _ (_ : QueueState ℕ ℕ) :=
    exec_run [.enter 0 (.put 7) [], .enter 1 (.put 8) [], .enter 2 .beginFlush []] rfl
  exact ⟨_, _, hrun, rfl, ((bounded_and_closed hrun).2.2 rfl).1⟩

/-- While somebody sleeps the queue is open, and its supply is spoken for. -/
lemma asleep_supply (h : QueueRun size tr s) {t : τ} {c : CondVar} {a : Call T}
    (ht : s.pool.phase t = .asleep c a) :
    s.data.flushing = false ∧ s.data.supply c ≤ (s.pool.wokenFrom c).card := by
  have hmem : t ∈ s.pool.sleepers c := (Pool.mem_sleepers _ _ _).mpr ⟨a, ht⟩
  refine ⟨?_, (reachable_covered h).2.2 c ⟨t, hmem⟩⟩
  by_contra hf
  simp [closed_no_sleepers h (by simpa using hf) c] at hmem

/-- A sleeping thread leaves nothing that a woken one is not due for. -/
lemma asleep_bound (h : QueueRun size tr s) {t : τ} {c : CondVar} {a : Call T}
    (ht : s.pool.phase t = .asleep c a) : s.data.available c ≤ (s.pool.wokenFrom c).card := by
  obtain ⟨hopen, hcov⟩ := asleep_supply h ht
  rw [BlockingQueue.supply_open hopen] at hcov
  exact_mod_cast hcov

/-- No lost wake-up: the threads already woken account for every item a sleeping taker could
have, and for every slot a sleeping putter could have. -/
theorem no_lost_wakeup (h : QueueRun size tr s) :
    (∀ t a, s.pool.phase t = .asleep .notEmpty a →
      s.data.items.length ≤ (pendingTakers s).card) ∧
    (∀ t a, s.pool.phase t = .asleep .notFull a →
      s.data.size - s.data.items.length ≤ (pendingPutters s).card) ∧
    ((∀ t c a, s.pool.phase t ≠ .woken c a) →
      (∀ t a, s.pool.phase t = .asleep .notEmpty a → s.data.items = []) ∧
      (∀ t a, s.pool.phase t = .asleep .notFull a → s.data.items.length = s.data.size)) := by
  obtain ⟨hsound, htarget, _⟩ := reachable_covered h
  refine ⟨?_, ?_, fun hpending => ⟨?_, ?_⟩⟩
  · intro t a ht
    rw [show pendingTakers s = s.pool.wokenFrom .notEmpty from pending_eq htarget .notEmpty]
    exact asleep_bound h ht
  · intro t a ht
    rw [show pendingPutters s = s.pool.wokenFrom .notFull from pending_eq htarget .notFull]
    exact asleep_bound h ht
  · intro t a ht
    have hbound := asleep_bound h ht
    rw [Pool.wokenFrom_eq_empty hpending, Finset.card_empty,
      BlockingQueue.available_notEmpty] at hbound
    exact List.length_eq_zero_iff.mp (by omega)
  · intro t a ht
    have hbound := asleep_bound h ht
    rw [Pool.wokenFrom_eq_empty hpending, Finset.card_empty,
      BlockingQueue.available_notFull] at hbound
    have hb := hsound.bounded
    have hs := hsound.size_eq
    omega

/-- Two takers sleep, and the notification of one `put` is still pending. -/
theorem no_lost_wakeup_two_takers :
    ∃ (tr : List (QueueTransition ℕ ℕ)) (s : QueueState ℕ ℕ),
      QueueRun 1 tr s ∧ s.pool.phase 1 = .asleep .notEmpty (.take 0) ∧ s.data.items = [7] ∧
      s.data.items.length ≤ (pendingTakers s).card := by
  have hrun : QueueRun 1 _ (_ : QueueState ℕ ℕ) :=
    exec_run [.enter 0 (.take 0) [], .enter 1 (.take 0) [], .enter 2 (.put 7) [0]] rfl
  exact ⟨_, _, hrun, rfl, rfl, (no_lost_wakeup hrun).1 1 (.take 0) rfl⟩

end Reachable

end StupidAR
