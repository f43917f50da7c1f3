import StupidAR.Monitor.Linearizable
import StupidAR.Queue.Closed

/-!
# The queue as one atomic object

What the queue is for, without threads and condition variables: a bounded first-in first-out
container that can be closed. A closed one has no items.
-/

namespace StupidAR

open Monitor

inductive ClosableFifo (T : Type) where
  | closed
  | holding (items : List T)

namespace ClosableFifo

variable {T : Type}

/-- The result of a call and what it leaves, or nothing when the caller has to wait. -/
def perform (size : ℕ) : Call T → ClosableFifo T → Option (Result T × ClosableFifo T)
  | .put e, holding items =>
    if items.length < size then some (.stored true, holding (items ++ [e])) else none
  | .offer e, holding items =>
    if items.length < size then some (.stored true, holding (items ++ [e]))
    else some (.stored false, holding items)
  | .take _, holding (e :: items) => some (.fetched true e, holding items)
  | .take _, holding [] => none
  | .poll _, holding (e :: items) => some (.fetched true e, holding items)
  | .poll out, holding [] => some (.fetched false out, holding [])
  | .beginFlush, _ => some (.done, closed)
  | .endFlush, closed => some (.done, holding [])
  | .endFlush, holding items => some (.done, holding items)
  | a, closed => some (a.refusal, closed)

def Apply (size : ℕ) (x : ClosableFifo T) (a : Call T) (r : Result T) (y : ClosableFifo T) :
    Prop :=
  perform size a x = some (r, y)

lemma perform_element {size : ℕ} {a : Call T} {e : T} {items : List T}
    (ha : a.element? = some e) (hroom : items.length < size) :
    perform size a (holding items) = some (.stored true, holding (items ++ [e])) := by
  cases a <;> cases ha <;> simp [perform, hroom]

lemma perform_out {size : ℕ} {a : Call T} {out e : T} {items : List T}
    (ha : a.out? = some out) :
    perform size a (holding (e :: items)) = some (.fetched true e, holding items) := by
  cases a <;> cases ha <;> simp [perform]

lemma perform_closed {size : ℕ} {a : Call T} (ha : a.transfers = true) :
    perform size a closed = some (a.refusal, closed) := by
  cases a <;> simp_all [perform, Call.transfers]

end ClosableFifo

namespace BlockingQueue

variable {T : Type}

/-- What the queue's data stand for. -/
def toFifo (q : BlockingQueue T) : ClosableFifo T :=
  if q.flushing then .closed else .holding q.items

lemma toFifo_closed {q : BlockingQueue T} (h : q.flushing = true) : q.toFifo = .closed := by
  simp [toFifo, h]

lemma toFifo_holding {q : BlockingQueue T} (h : q.flushing = false) :
    q.toFifo = .holding q.items := by
  simp [toFifo, h]

/-- On an open queue only the non-blocking calls are refused, for want of room or of items. -/
lemma refused_open {q : BlockingQueue T} {a : Call T} (hopen : q.flushing = false)
    (ha : a.transfers = true) (h : q.call a = .exit q [] a.refusal) :
    (∃ e, a = .offer e ∧ q.items.length = q.size) ∨ ∃ out, a = .poll out ∧ q.items = [] := by
  obtain ⟨flushing, size, items⟩ := q
  obtain rfl : flushing = false := hopen
  cases a with
  | put e =>
    by_cases hroom : items.length = size <;> simp [call, put, waitUntil, hroom] at h
  | offer e =>
    refine .inl ⟨e, rfl, ?_⟩
    by_contra hroom
    have hne : items.length ≠ size := hroom
    simp [call, offer, hne] at h
  | take out => cases items <;> simp [call, take, waitUntil] at h
  | poll out =>
    cases items with
    | nil => exact .inr ⟨out, rfl, rfl⟩
    | cons e rest => simp [call, poll] at h
  | _ => cases ha

/-- A section that ends a call performs it. That a closed queue is empty matters for `poll`,
which does not look at `m_flushing`. -/
theorem implements_fifo (size : ℕ) :
    Implements (call (T := T)) (Sound size) (ClosableFifo.Apply size) toFifo := by
  intro a q d signals r hq h
  unfold ClosableFifo.Apply
  cases exit_cases h with
  | accepted ha hopen hroom =>
    rw [toFifo_holding hopen, toFifo_holding (by exact hopen)]
    exact ClosableFifo.perform_element ha (hq.room hroom)
  | handed ha _ hitems =>
    have hopen : q.flushing = false := by
      by_contra hf
      have hempty := hq.closed_empty (by simpa using hf)
      rw [hitems] at hempty
      cases hempty
    rw [toFifo_holding hopen, toFifo_holding (by exact hopen), hitems]
    exact ClosableFifo.perform_out ha
  | refused ha =>
    cases hf : q.flushing with
    | true =>
      rw [toFifo_closed hf]
      exact ClosableFifo.perform_closed ha
    | false =>
      rw [toFifo_holding hf]
      rcases refused_open hf ha h with ⟨e, rfl, hfull⟩ | ⟨out, rfl, hempty⟩
      · have hsize := hq.size_eq
        simp [ClosableFifo.perform, Call.refusal, hfull, hsize]
      · simp [ClosableFifo.perform, Call.refusal, hempty]
  | closed hclosed =>
    rw [toFifo_closed hclosed]
    rfl
  | closing hopen =>
    rw [toFifo_closed (q := { q with flushing := true, items := [] }) rfl]
    cases q.toFifo <;> rfl
  | opening =>
    rw [toFifo_holding (q := { q with flushing := false }) rfl]
    cases hf : q.flushing with
    | true =>
      rw [toFifo_closed hf, hq.closed_empty hf]
      rfl
    | false =>
      rw [toFifo_holding hf]
      rfl

/-- A call waits exactly when the object has no result for it. -/
theorem wait_iff_perform {size : ℕ} {q : BlockingQueue T} (hq : q.Sound size) (a : Call T) :
    (∃ c, q.call a = .wait c) ↔ ClosableFifo.perform size a q.toFifo = none := by
  constructor
  · rintro ⟨c, hc⟩
    obtain ⟨htarget, hopen, hfull, hempty⟩ := wait_iff.mp hc
    rw [toFifo_holding hopen]
    cases a with
    | put e =>
      cases htarget
      have hlength := hfull rfl
      have hsize := hq.size_eq
      simp [ClosableFifo.perform, hlength, hsize]
    | take out =>
      cases htarget
      simp [ClosableFifo.perform, hempty rfl]
    | _ => cases htarget
  · intro hnone
    cases hcall : q.call a with
    | wait c => exact ⟨c, rfl⟩
    | exit d signals r =>
      have happly : ClosableFifo.perform size a q.toFifo = some (r, d.toFifo) :=
        implements_fifo size a q d signals r hq hcall
      rw [hnone] at happly
      cases happly

end BlockingQueue

section Reachable

variable {τ T : Type} [DecidableEq τ] {size : ℕ} {tr : List (QueueTransition τ T)}
  {s : QueueState τ T}

lemma waits_perform (h : QueueRun size tr s) {x : QueueTransition τ T} (hx : x ∈ tr)
    {a : Call T} {c : CondVar} (ho : x.outcome = .waits a c) :
    ClosableFifo.perform size a x.pre.data.toFifo = none := by
  obtain ⟨tr₁, tr₂, rfl⟩ := List.append_of_mem hx
  obtain ⟨hpre, hstep, -⟩ := h.middle
  obtain ⟨hsound, -, -⟩ := reachable_covered hpre
  generalize x.event = ev, x.post = s₂ at hstep
  rw [ho] at hstep
  cases hstep with
  | sleep _ hb => exact (BlockingQueue.wait_iff_perform hsound a).mp ⟨c, hb⟩

/-- The queue is linearizable: to its clients it is one atomic first-in first-out container
of the given capacity that can be closed. A call waits only while that container would have
no result for it. -/
theorem queue_linearizable (h : QueueRun size tr s) :
    Linearizable (ClosableFifo.Apply size) (.holding []) (clientHistory tr) ∧
    Legal (ClosableFifo.Apply size) (.holding []) (returned tr) s.data.toFifo ∧
    ∀ x ∈ tr, ∀ a c, x.outcome = .waits a c →
      ClosableFifo.perform size a x.pre.data.toFifo = none := by
  have himpl := BlockingQueue.implements_fifo (T := T) size
  have hsound := BlockingQueue.sound_ofSize (T := T) size
  refine ⟨?_, ?_, fun x hx a c ho => waits_perform h hx ho⟩
  · exact h.linearizable (sound_keeps size) himpl hsound fun _ => rfl
  · exact h.legal (sound_keeps size) himpl hsound

/-- A `take` that waits is answered after a later `put`, and a flush refuses the next one. -/
theorem queue_linearizable_overlapping :
    ∃ (tr : List (QueueTransition ℕ ℕ)) (s : QueueState ℕ ℕ), QueueRun 1 tr s ∧
      clientHistory tr = [.invoke 0 (.take 0), .invoke 1 (.put 7), .respond 1 (.stored true),
        .respond 0 (.fetched true 7), .invoke 1 .beginFlush, .respond 1 .done,
        .invoke 0 (.take 0), .respond 0 (.fetched false 0)] ∧
      Linearizable (ClosableFifo.Apply 1) (.holding []) (clientHistory tr) := by
  have hrun : QueueRun 1 _ (_ : QueueState ℕ ℕ) :=
    exec_run [.enter 0 (.take 0) [], .enter 1 (.put 7) [0], .resume 0 [],
      .enter 1 .beginFlush [], .enter 0 (.take 0) []] rfl
  exact ⟨_, _, hrun, rfl, (queue_linearizable hrun).1⟩

end Reachable

end StupidAR
