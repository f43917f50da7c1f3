import Mathlib.Algebra.BigOperators.Ring.Finset
import StupidAR.Monitor.Effort
import StupidAR.Queue.Clients

/-!
# Programs of calls

Finitely many threads, each with a list of calls of any kind to make, flushes included. Such
a program cannot run forever, and where it stops short the threads left wait for a call that
nobody makes any more.
-/

namespace StupidAR

open Monitor

variable {τ T : Type}

/-- The runs of threads that make their lists of calls on a new queue. -/
inductive ProgramRun [DecidableEq τ] (size : ℕ) (program : τ → List (Call T)) :
    List (QueueTransition τ T) → ClientState τ T → Prop
  | nil : ProgramRun size program [] ⟨initial τ T size, program⟩
  | snoc {tr : List (QueueTransition τ T)} {s s' : ClientState τ T} {ev : Event τ (Call T)}
    {o : Outcome CondVar (Call T) (Result T)} (hrun : ProgramRun size program tr s)
    (hstep : ClientStep s ev o s') :
    ProgramRun size program (tr ++ [⟨s.queue, ev, o, s'.queue⟩]) s'

/-- How many of `n` threads the signals of a call may wake. -/
def Call.wakes (n : ℕ) : Call T → ℕ
  | put _ | offer _ | take _ | poll _ => 1
  | beginFlush => n
  | endFlush => 0

/-- The steps that a call may take part in: its entry and those of the threads it wakes. -/
def Call.effort (n : ℕ) (a : Call T) : ℕ := a.wakes n + 1

lemma sum_effort (n : ℕ) (l : List (Call T)) :
    (l.map (Call.effort n)).sum = (l.map (Call.wakes n)).sum + l.length := by
  induction l with
  | nil => rfl
  | cons a l ih =>
    simp only [List.map_cons, List.sum_cons, List.length_cons, ih, Call.effort]
    omega

lemma Role.effort_calls (n : ℕ) (r : Role T) :
    (r.calls.map (Call.effort n)).sum = 2 * (r.puts + r.takes) := by
  have htwo : ∀ x ∈ r.calls.map (Call.effort n), x = 2 := by
    intro x hx
    obtain ⟨a, ha, rfl⟩ := List.mem_map.mp hx
    cases r with
    | producer es => obtain ⟨e, -, rfl⟩ := List.mem_map.mp ha; rfl
    | consumer outs => obtain ⟨out, -, rfl⟩ := List.mem_map.mp ha; rfl
  rw [List.sum_eq_card_nsmul _ 2 htwo, List.length_map, Nat.nsmul_eq_mul, Nat.mul_comm]
  cases r <;> simp [calls, puts, takes]

lemma call_reach (n : ℕ) {a : Call T} {q d : BlockingQueue T} {signals : List (Signal CondVar)}
    {r : Result T} (h : q.call a = .exit d signals r) : reach n signals ≤ a.wakes n := by
  cases exit_cases h with
  | accepted ha => cases a <;> cases ha <;> exact le_rfl
  | handed ha => cases a <;> cases ha <;> exact le_rfl
  | refused => exact Nat.zero_le _
  | closed => exact Nat.zero_le _
  | closing => exact le_rfl
  | opening => exact Nat.zero_le _

section Accounting

variable [DecidableEq τ] {size : ℕ} {program : τ → List (Call T)}
  {tr : List (QueueTransition τ T)} {s : ClientState τ T}

lemma ProgramRun.queueRun (h : ProgramRun size program tr s) : QueueRun size tr s.queue := by
  induction h with
  | nil => exact .nil
  | snoc _ hstep ih => exact .snoc ih hstep.step

lemma ClientRun.programRun {roles : τ → Role T} (h : ClientRun size roles tr s) :
    ProgramRun size (fun t => (roles t).calls) tr s := by
  induction h with
  | nil => exact .nil
  | snoc _ hstep ih => exact .snoc ih hstep

lemma ProgramRun.clientRun {roles : τ → Role T}
    (h : ProgramRun size (fun t => (roles t).calls) tr s) : ClientRun size roles tr s := by
  induction h with
  | nil => exact .nil
  | snoc _ hstep ih => exact .snoc ih hstep

variable [Fintype τ]

/-- Every call of the program has returned or is unfinished. -/
lemma ProgramRun.balance (h : ProgramRun size program tr s) (w : Call T → ℕ) :
    ((returned tr).map fun p => w p.1).sum + ∑ t, ((s.unfinished t).map w).sum =
      ∑ t, ((program t).map w).sum := by
  induction h with
  | nil => simp [returned, ClientState.unfinished, initial, currentCall]
  | @snoc tr s s' ev o _ hstep ih =>
    rw [returned_concat, List.map_append, List.sum_append]
    rcases hstep.unfinished_cases with ⟨hun, -, ho⟩ | ⟨t, a, rest, r, signals, ht, hun, ho, -⟩
    · have hnone : returned? (⟨s.queue, ev, o, s'.queue⟩ : QueueTransition τ T) = none := by
        unfold returned?
        split
        · rename_i a r heq
          exact absurd heq (ho a r)
        · rfl
      rw [hun, hnone]
      simpa using ih
    · have hsum := sum_update_add s.unfinished (fun l => (l.map w).sum) t rest
      simp only [ht, List.map_cons, List.sum_cons] at hsum
      subst ho
      simp only [returned?, Option.toList_some, List.map_singleton, List.sum_singleton, hun]
      omega

/-- Every call of the program has been entered or is still to do. -/
lemma ProgramRun.enters (h : ProgramRun size program tr s) :
    tr.countP (fun x => x.event.isEnter) + ∑ t, (s.todo t).length =
      ∑ t, (program t).length := by
  induction h with
  | nil => simp
  | @snoc tr s _ _ _ _ hstep ih =>
    rw [List.countP_append, List.countP_singleton]
    cases hstep with
    | @enter t a rest us o q htodo hstep =>
      have hsum := sum_update_add s.todo List.length t rest
      rw [htodo, List.length_cons] at hsum
      have henter : (Event.enter t a us).isEnter = true := rfl
      rw [if_pos henter]
      dsimp only at hsum ⊢
      omega
    | resume => simpa [Event.isEnter] using ih
    | spurious => simpa [Event.isEnter] using ih

/-- The calls of the program bound the length of its runs, spurious wake-ups apart. -/
lemma ProgramRun.length_le (h : ProgramRun size program tr s) :
    tr.length ≤ ∑ t, ((program t).map (Call.effort (Fintype.card τ))).sum +
      2 * tr.countP (fun x => x.event.isSpurious) := by
  have henters := h.enters
  have hbalance := h.balance (Call.wakes (Fintype.card τ))
  have hresumes : tr.countP (fun x => x.event.isResume) ≤
      tr.countP (fun x => x.event.isSpurious) +
        ((returned tr).map fun p => p.1.wakes (Fintype.card τ)).sum := by
    have hrun := h.queueRun.resumes_le fun a q d signals r hcall =>
      call_reach (Fintype.card τ) hcall
    have hempty : (initial τ T size).pool.woken = ∅ := Pool.woken_eq_empty fun _ => rfl
    rw [hempty, Finset.card_empty] at hrun
    exact (Nat.le_add_left _ _).trans (hrun.trans (by rw [Nat.zero_add]))
  have hevents : tr.length = tr.countP (fun x => x.event.isEnter) +
      tr.countP (fun x => x.event.isResume) + tr.countP (fun x => x.event.isSpurious) :=
    length_eq_events tr
  have heffort : ∑ t, ((program t).map (Call.effort (Fintype.card τ))).sum =
      ∑ t, ((program t).map (Call.wakes (Fintype.card τ))).sum + ∑ t, (program t).length := by
    rw [← Finset.sum_add_distrib]
    exact Finset.sum_congr rfl fun t _ => sum_effort _ _
  omega

end Accounting

/-! ### Where programs stop -/

section Settling

variable [DecidableEq τ] {size : ℕ} {program : τ → List (Call T)}
  {tr : List (QueueTransition τ T)} {s : ClientState τ T}

/-- The thread has returned from its last call. -/
def ClientState.Done (s : ClientState τ T) (t : τ) : Prop :=
  s.queue.pool.phase t = .idle ∧ s.todo t = []

/-- The thread sleeps in a `put` and the queue is open and full. -/
def ClientState.WaitsForRoom (s : ClientState τ T) (t : τ) : Prop :=
  (∃ e, s.queue.pool.phase t = .asleep .notFull (.put e)) ∧
    s.queue.data.flushing = false ∧ s.queue.data.items.length = s.queue.data.size

/-- The thread sleeps in a `take` and the queue is open and empty. -/
def ClientState.WaitsForItem (s : ClientState τ T) (t : τ) : Prop :=
  (∃ out, s.queue.pool.phase t = .asleep .notEmpty (.take out)) ∧
    s.queue.data.flushing = false ∧ s.queue.data.items = []

lemma ClientState.Stuck.no_woken (hs : s.Stuck) (t : τ) (c : CondVar) (a : Call T) :
    s.queue.pool.phase t ≠ .woken c a := by
  intro hp
  rcases hs.phase t with ⟨d, b, hp'⟩ | ⟨hp', _⟩ <;> simp [hp] at hp'

lemma stuck_cases (h : QueueRun size tr s.queue) (hs : s.Stuck) (t : τ) :
    s.Done t ∨ s.WaitsForRoom t ∨ s.WaitsForItem t := by
  rcases hs.phase t with ⟨c, a, hp⟩ | hdone
  · right
    obtain ⟨hsound, htarget, -⟩ := reachable_covered h
    obtain ⟨hopen, -⟩ := asleep_supply h hp
    have ha : a.target = some c := htarget t c a (.inl hp)
    have hwoken := Pool.wokenFrom_eq_empty hs.no_woken c
    cases a with
    | put e =>
      cases ha
      have hbound := asleep_bound h hp
      rw [hwoken, Finset.card_empty, BlockingQueue.available_notFull] at hbound
      have hb := hsound.bounded
      have hsize := hsound.size_eq
      exact .inl ⟨⟨e, hp⟩, hopen, by omega⟩
    | take out =>
      cases ha
      have hbound := asleep_bound h hp
      rw [hwoken, Finset.card_empty, BlockingQueue.available_notEmpty] at hbound
      exact .inr ⟨⟨out, hp⟩, hopen, List.length_eq_zero_iff.mp (by omega)⟩
    | _ => cases ha
  · exact .inl hdone

/-- Threads that are done or asleep take no step of their own. -/
lemma stuck_of_cases (h : ∀ t, s.Done t ∨ s.WaitsForRoom t ∨ s.WaitsForItem t) : s.Stuck := by
  have hphase : ∀ t, s.Done t ∨ ∃ c a, s.queue.pool.phase t = .asleep c a := by
    intro t
    rcases h t with hdone | ⟨⟨e, hp⟩, -⟩ | ⟨⟨out, hp⟩, -⟩
    · exact .inl hdone
    · exact .inr ⟨_, _, hp⟩
    · exact .inr ⟨_, _, hp⟩
  intro ev o s' hstep
  cases hstep with
  | @enter t a rest us o q htodo hq =>
    rcases hphase t with ⟨-, hnil⟩ | ⟨c, b, hp⟩
    · simp [htodo] at hnil
    · simp [hq.enter_idle] at hp
  | @resume t us o q hq =>
    have hwoken : ∃ c a, s.queue.pool.phase t = .woken c a := by
      cases hq with
      | sleep hr _ => cases hr with | resume hp => exact ⟨_, _, hp⟩
      | exit hr _ _ => cases hr with | resume hp => exact ⟨_, _, hp⟩
    obtain ⟨c, a, hp⟩ := hwoken
    rcases hphase t with ⟨hidle, -⟩ | ⟨d, b, hp'⟩
    · simp [hp] at hidle
    · simp [hp] at hp'
  | spurious => rfl

lemma ClientState.exists_step (hs : ¬s.Stuck) :
    ∃ ev o s', ClientStep s ev o s' ∧ ev.isSpurious = false := by
  unfold ClientState.Stuck at hs
  push Not at hs
  obtain ⟨ev, o, s', hstep, hev⟩ := hs
  exact ⟨ev, o, s', hstep, by simpa using hev⟩

/-- The steps that `ProgramRun.length_le` leaves to a run. -/
def remaining [Fintype τ] (program : τ → List (Call T)) (tr : List (QueueTransition τ T)) : ℕ :=
  ∑ t, ((program t).map (Call.effort (Fintype.card τ))).sum +
    2 * tr.countP (fun x => x.event.isSpurious) - tr.length

lemma ProgramRun.remaining_lt [Fintype τ] {x : QueueTransition τ T}
    (h : ProgramRun size program (tr ++ [x]) s) (hx : x.event.isSpurious = false) :
    remaining program (tr ++ [x]) < remaining program tr := by
  have hbound := h.length_le
  unfold remaining
  rw [List.countP_append, List.countP_singleton, hx, List.length_append,
    List.length_singleton] at hbound ⊢
  simp only [Bool.false_eq_true, if_false, Nat.add_zero] at hbound ⊢
  omega

/-- The threads of a program come to rest from every reachable state. -/
lemma ProgramRun.exists_stuck [Fintype τ] (h : ProgramRun size program tr s) :
    ∃ tr' s', ProgramRun size program (tr ++ tr') s' ∧
      (∀ x ∈ tr', x.event.isSpurious = false) ∧ s'.Stuck := by
  generalize hk : remaining program tr = k
  induction k using Nat.strong_induction_on generalizing tr s with
  | _ k ih =>
    by_cases hs : s.Stuck
    · exact ⟨[], s, by simpa using h, by simp, hs⟩
    · obtain ⟨ev, o, s', hstep, hev⟩ := ClientState.exists_step hs
      have hnext := ProgramRun.snoc h hstep
      have hlt := hnext.remaining_lt hev
      rw [hk] at hlt
      obtain ⟨tr', s'', hrun, hquiet, hstuck⟩ := ih _ hlt hnext rfl
      refine ⟨⟨s.queue, ev, o, s'.queue⟩ :: tr', s'', by simpa using hrun, ?_, hstuck⟩
      intro x hx
      rcases List.mem_cons.mp hx with rfl | hx
      · exact hev
      · exact hquiet x hx

/-- A taker that a flush catches asleep. The flush wakes it, but the queue is open again, and
empty, before the taker has the lock. -/
def reopening (t : Bool) : List (Call ℕ) :=
  if t then [.put 7, .beginFlush, .endFlush] else [.take 0, .take 0]

lemma reopening_run : ∃ (tr : List (QueueTransition Bool ℕ)) (s : ClientState Bool ℕ),
    ProgramRun 1 reopening tr s ∧ tr.length = 7 ∧ s.Done true ∧ s.WaitsForItem false := by
  have hrun : ProgramRun 1 reopening _ _ :=
    .snoc (.snoc (.snoc (.snoc (.snoc (.snoc (.snoc .nil
      (@ClientStep.enter _ _ _ _ false _ _ [] _ _ rfl (step_cases rfl)))
      (@ClientStep.enter _ _ _ _ true _ _ [false] _ _ rfl (step_cases rfl)))
      (@ClientStep.resume _ _ _ _ false [] _ _ (step_cases rfl)))
      (@ClientStep.enter _ _ _ _ false _ _ [] _ _ rfl (step_cases rfl)))
      (@ClientStep.enter _ _ _ _ true _ _ [] _ _ rfl (step_cases rfl)))
      (@ClientStep.enter _ _ _ _ true _ _ [] _ _ rfl (step_cases rfl)))
      (@ClientStep.resume _ _ _ _ false [] _ _ (step_cases rfl))
  exact ⟨_, _, hrun, rfl, ⟨rfl, rfl⟩, ⟨0, rfl⟩, rfl, rfl⟩

/-- Every program of calls terminates. Apart from spurious wake-ups its runs are no longer
than its calls, plus one wake-up for each call that transfers an element and one for each
thread and call of `begin_flush`; and from every state it can come to rest. -/
theorem program_terminates [Fintype τ] (h : ProgramRun size program tr s) :
    tr.length ≤ ∑ t, ((program t).map (Call.effort (Fintype.card τ))).sum +
      2 * tr.countP (fun x => x.event.isSpurious) ∧
    ∃ tr' s', ProgramRun size program (tr ++ tr') s' ∧
      (∀ x ∈ tr', x.event.isSpurious = false) ∧ s'.Stuck :=
  ⟨h.length_le, h.exists_stuck⟩

theorem program_terminates_reopening :
    ∃ (tr : List (QueueTransition Bool ℕ)) (s : ClientState Bool ℕ),
      ProgramRun 1 reopening tr s ∧ tr.length = 7 ∧
      tr.length ≤ 10 + 2 * tr.countP (fun x => x.event.isSpurious) := by
  obtain ⟨tr, s, hrun, hlength, -⟩ := reopening_run
  exact ⟨tr, s, hrun, hlength, (program_terminates hrun).1⟩

/-- Where a program comes to rest. Each thread is done or in a call that cannot be performed.
So all are done if the queue was left closed, and those that are not wait for the same thing
unless the queue has no capacity. -/
theorem program_rests (h : ProgramRun size program tr s) :
    (s.Stuck ↔ ∀ t, s.Done t ∨ s.WaitsForRoom t ∨ s.WaitsForItem t) ∧
    (s.Stuck → s.queue.data.flushing = true → s.Finished) ∧
    (s.Stuck → 0 < size →
      (∀ t, s.Done t ∨ s.WaitsForRoom t) ∨ ∀ t, s.Done t ∨ s.WaitsForItem t) := by
  have hrun := h.queueRun
  have hsize := (reachable_covered hrun).1.size_eq
  refine ⟨⟨stuck_cases hrun, stuck_of_cases⟩, ?_, ?_⟩
  · intro hs hclosed t
    rcases stuck_cases hrun hs t with hdone | ⟨-, hopen, -⟩ | ⟨-, hopen, -⟩
    · exact hdone
    · simp [hopen] at hclosed
    · simp [hopen] at hclosed
  · intro hs hpos
    by_cases hitems : s.queue.data.items = []
    · refine .inr fun t => ?_
      rcases stuck_cases hrun hs t with hdone | ⟨-, -, hfull⟩ | hwaits
      · exact .inl hdone
      · rw [hitems, List.length_nil] at hfull
        omega
      · exact .inr hwaits
    · refine .inl fun t => ?_
      rcases stuck_cases hrun hs t with hdone | hwaits | ⟨-, -, hempty⟩
      · exact .inl hdone
      · exact .inr hwaits
      · exact absurd hempty hitems

theorem program_rests_reopening :
    ∃ (tr : List (QueueTransition Bool ℕ)) (s : ClientState Bool ℕ),
      ProgramRun 1 reopening tr s ∧ s.Stuck ∧ s.WaitsForItem false := by
  obtain ⟨tr, s, hrun, -, hdone, hwaits⟩ := reopening_run
  refine ⟨tr, s, hrun, (program_rests hrun).1.mpr fun t => ?_, hwaits⟩
  cases t with
  | true => exact .inl hdone
  | false => exact .inr (.inr hwaits)

/-- Producers and consumers with room for the surplus finish, whatever the schedule: their
runs take at most two steps for each call, and two for each spurious wake-up. -/
theorem producers_consumers_terminate [Fintype τ] {roles : τ → Role T} (hsize : 1 ≤ size)
    (hle : ∑ t, (roles t).takes ≤ ∑ t, (roles t).puts)
    (hroom : ∑ t, (roles t).puts ≤ ∑ t, (roles t).takes + size)
    (h : ClientRun size roles tr s) :
    tr.length ≤ 2 * (∑ t, (roles t).puts + ∑ t, (roles t).takes) +
      2 * tr.countP (fun x => x.event.isSpurious) ∧
    (s.Stuck → s.Finished) ∧
    ∃ tr' s', ClientRun size roles (tr ++ tr') s' ∧
      (∀ x ∈ tr', x.event.isSpurious = false) ∧ s'.Finished := by
  have hprogram := h.programRun
  refine ⟨?_, stuck_finished hsize hle hroom h, ?_⟩
  · have hbound := hprogram.length_le
    have heffort : ∀ t, ((roles t).calls.map (Call.effort (Fintype.card τ))).sum =
        2 * ((roles t).puts + (roles t).takes) := by
      intro t
      exact Role.effort_calls _ _
    rw [Finset.sum_congr rfl fun t _ => heffort t, ← Finset.mul_sum,
      Finset.sum_add_distrib] at hbound
    exact hbound
  · obtain ⟨tr', s', hrun, hquiet, hstuck⟩ := hprogram.exists_stuck
    have hclient := hrun.clientRun
    exact ⟨tr', s', hclient, hquiet, stuck_finished hsize hle hroom hclient hstuck⟩

/-- A consumer that gets to sleep first, and its producer still to start. -/
theorem producers_consumers_terminate_pair :
    ∃ (tr : List (QueueTransition Bool ℕ)) (s : ClientState Bool ℕ),
      ClientRun 1 (fun t => if t then .producer [7] else .consumer [0]) tr s ∧ ¬s.Finished ∧
      ∃ tr' s', ClientRun 1 (fun t => if t then .producer [7] else .consumer [0]) (tr ++ tr') s' ∧
        s'.Finished := by
  have hrun : ClientRun 1 (fun t : Bool => if t then .producer [7] else .consumer [0]) _ _ :=
    .snoc .nil (@ClientStep.enter _ _ _ _ false _ _ [] _ _ rfl (step_cases rfl))
  obtain ⟨-, -, tr', s', hrun', -, hfinished⟩ :=
    producers_consumers_terminate (by decide) (by decide) (by decide) hrun
  refine ⟨_, _, hrun, fun hf => ?_, tr', s', hrun', hfinished⟩
  cases (hf true).2

end Settling

end StupidAR
