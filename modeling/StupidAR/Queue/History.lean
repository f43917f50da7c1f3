import StupidAR.Queue.BlockingQueue
import StupidAR.Queue.Fifo

/-!
# The blocking queue refines a first-in first-out history

Each atomic step of a run adds at most one event to the history of the contents: an element
accepted by `put` or `offer`, an element handed out by `take` or `poll`, or the loss of the
contents to a `begin_flush` that closes the queue.
-/

namespace StupidAR

open Monitor

variable {τ T : Type}

section Observations

/-- The element of a `put` or `offer` call that returns true in this step. -/
def accepted? (x : QueueTransition τ T) : Option T :=
  match x.outcome with
  | .returns (.put e) (.stored true) => some e
  | .returns (.offer e) (.stored true) => some e
  | _ => none

/-- The element that a `take` or `poll` call hands out in this step. -/
def handedOut? (x : QueueTransition τ T) : Option T :=
  match x.outcome with
  | .returns (.take _) (.fetched true e) => some e
  | .returns (.poll _) (.fetched true e) => some e
  | _ => none

/-- The step is a `begin_flush` that actually closes the queue. -/
def closes (x : QueueTransition τ T) : Bool :=
  match x.outcome with
  | .returns .beginFlush _ => !x.pre.data.flushing
  | _ => false

def accepted (tr : List (QueueTransition τ T)) : List T := tr.filterMap accepted?

def handedOut (tr : List (QueueTransition τ T)) : List T := tr.filterMap handedOut?

/-- What the closing flushes found in the queue, in order. -/
def discarded (tr : List (QueueTransition τ T)) : List T :=
  tr.flatMap fun x => if closes x then x.pre.data.items else []

/-- The steps since the queue was last closed, or since its construction. -/
def epoch (tr : List (QueueTransition τ T)) : List (QueueTransition τ T) :=
  Fifo.sinceLast closes tr

end Observations

/-- The event of the abstract queue that a step refines, if it is not a stutter. -/
def fifoEvent? (x : QueueTransition τ T) : Option (Fifo.Event T) :=
  if closes x then some (.clear x.pre.data.items)
  else
    match accepted? x with
    | some e => some (.enqueue e)
    | none => (handedOut? x).map .dequeue

def fifoHistory (tr : List (QueueTransition τ T)) : List (Fifo.Event T) :=
  tr.filterMap fifoEvent?

lemma closes_not_accepted {x : QueueTransition τ T} (h : closes x = true) :
    accepted? x = none ∧ handedOut? x = none := by
  unfold closes at h
  unfold accepted? handedOut?
  split at h
  · rename_i heq
    simp [heq]
  · cases h

lemma accepted_not_handedOut {x : QueueTransition τ T} {e : T} (h : accepted? x = some e) :
    handedOut? x = none := by
  unfold accepted? at h
  unfold handedOut?
  split at h
  · rename_i heq
    simp [heq]
  · rename_i heq
    simp [heq]
  · cases h

lemma fifoEvent_enqueued (x : QueueTransition τ T) :
    (fifoEvent? x).bind Fifo.Event.enqueued? = accepted? x := by
  unfold fifoEvent?
  cases hc : closes x with
  | true => simp [Fifo.Event.enqueued?, closes_not_accepted hc]
  | false =>
    cases ha : accepted? x with
    | some e => simp [Fifo.Event.enqueued?]
    | none => cases hh : handedOut? x <;> simp [Fifo.Event.enqueued?]

lemma fifoEvent_dequeued (x : QueueTransition τ T) :
    (fifoEvent? x).bind Fifo.Event.dequeued? = handedOut? x := by
  unfold fifoEvent?
  cases hc : closes x with
  | true => simp [Fifo.Event.dequeued?, closes_not_accepted hc]
  | false =>
    cases ha : accepted? x with
    | some e => simp [Fifo.Event.dequeued?, accepted_not_handedOut ha]
    | none => cases hh : handedOut? x <;> simp [Fifo.Event.dequeued?]

lemma fifoEvent_isClear (x : QueueTransition τ T) :
    (fifoEvent? x).any Fifo.Event.isClear = closes x := by
  unfold fifoEvent?
  cases hc : closes x with
  | true => simp [Fifo.Event.isClear]
  | false =>
    cases ha : accepted? x with
    | some e => simp [Fifo.Event.isClear]
    | none => cases hh : handedOut? x <;> simp [Fifo.Event.isClear]

lemma fifoEvent_lost (x : QueueTransition τ T) :
    (fifoEvent? x).toList.flatMap Fifo.Event.lost = if closes x then x.pre.data.items else [] := by
  unfold fifoEvent?
  cases hc : closes x with
  | true => simp [Fifo.Event.lost]
  | false =>
    cases ha : accepted? x with
    | some e => simp [Fifo.Event.lost]
    | none => cases hh : handedOut? x <;> simp [Fifo.Event.lost]

lemma enqueued_fifoHistory (tr : List (QueueTransition τ T)) :
    Fifo.enqueued (fifoHistory tr) = accepted tr := by
  unfold Fifo.enqueued fifoHistory accepted
  rw [List.filterMap_filterMap]
  congr 1
  funext x
  exact fifoEvent_enqueued x

lemma dequeued_fifoHistory (tr : List (QueueTransition τ T)) :
    Fifo.dequeued (fifoHistory tr) = handedOut tr := by
  unfold Fifo.dequeued fifoHistory handedOut
  rw [List.filterMap_filterMap]
  congr 1
  funext x
  exact fifoEvent_dequeued x

lemma fifoHistory_concat (tr : List (QueueTransition τ T)) (x : QueueTransition τ T) :
    fifoHistory (tr ++ [x]) = fifoHistory tr ++ (fifoEvent? x).toList := by
  unfold fifoHistory
  rw [List.filterMap_append]
  cases h : fifoEvent? x <;> simp [h]

lemma lost_fifoHistory (tr : List (QueueTransition τ T)) :
    Fifo.lost (fifoHistory tr) = discarded tr := by
  induction tr using List.reverseRecOn with
  | nil => rfl
  | append_singleton tr x ih =>
    rw [fifoHistory_concat, Fifo.lost_append, ih]
    simp only [discarded, List.flatMap_append, List.flatMap_singleton, List.append_cancel_left_eq]
    exact fifoEvent_lost x

lemma epoch_fifoHistory (tr : List (QueueTransition τ T)) :
    Fifo.epoch (fifoHistory tr) = fifoHistory (epoch tr) := by
  induction tr using List.reverseRecOn with
  | nil => rfl
  | append_singleton tr x ih =>
    have hclear := fifoEvent_isClear x
    unfold epoch Fifo.epoch at ih ⊢
    rw [fifoHistory_concat, Fifo.sinceLast_concat]
    cases hev : fifoEvent? x with
    | none =>
      rw [hev] at hclear
      simp only [Option.any_none] at hclear
      simp [← hclear, fifoHistory_concat, hev, ih]
    | some ev =>
      rw [hev] at hclear
      simp only [Option.any_some] at hclear
      simp only [Option.toList_some, Fifo.sinceLast_concat, hclear]
      cases hc : closes x with
      | true => rfl
      | false => simp [fifoHistory_concat, hev, ih]

section Runs

variable [DecidableEq τ]

/-- One atomic step of the monitor is one event of the abstract queue, or none. -/
lemma step_fifo {q₀ : List T} {h : List (Fifo.Event T)} {s s' : QueueState τ T}
    {ev : Event τ (Call T)} {o : Outcome CondVar (Call T) (Result T)}
    (hh : Fifo.History q₀ h s.data.items) (hstep : Step BlockingQueue.call s ev o s') :
    Fifo.History q₀ (h ++ (fifoEvent? ⟨s, ev, o, s'⟩).toList) s'.data.items := by
  cases hstep with
  | sleep => simpa [fifoEvent?, closes, accepted?, handedOut?] using hh
  | wake => simpa [fifoEvent?, closes, accepted?, handedOut?] using hh
  | @exit _ _ a _ _ _ _ _ _ hb _ =>
    cases exit_cases hb with
    | @accepted _ e ha =>
      have hev := hh.enqueue e
      cases a <;> cases ha <;> simpa [fifoEvent?, closes, accepted?] using hev
    | handed ha _ hitems =>
      rw [hitems] at hh
      have hev := hh.dequeue
      cases a <;> cases ha <;> simpa [fifoEvent?, closes, accepted?, handedOut?] using hev
    | refused ha =>
      cases a <;> cases ha <;>
        simpa [fifoEvent?, closes, accepted?, handedOut?, Call.refusal] using hh
    | closed hclosed => simpa [fifoEvent?, closes, accepted?, handedOut?, hclosed] using hh
    | closing hopen => simpa [fifoEvent?, closes, hopen] using hh.clear
    | opening => simpa [fifoEvent?, closes, accepted?, handedOut?] using hh

/-- The contents of the queue refine the abstract queue along every run. -/
theorem run_fifo {s s' : QueueState τ T} {tr : List (QueueTransition τ T)}
    (h : Run BlockingQueue.call s tr s') :
    Fifo.History s.data.items (fifoHistory tr) s'.data.items := by
  induction h with
  | nil => exact .nil
  | snoc _ hstep ih =>
    rw [fifoHistory_concat]
    exact step_fifo ih hstep

lemma closes_post_empty {s s' : QueueState τ T} {ev : Event τ (Call T)}
    {o : Outcome CondVar (Call T) (Result T)} (hc : closes ⟨s, ev, o, s'⟩ = true)
    (hstep : Step BlockingQueue.call s ev o s') : s'.data.items = [] := by
  cases hstep with
  | sleep => simp [closes] at hc
  | wake => simp [closes] at hc
  | @exit _ _ a _ _ _ _ _ _ hb _ =>
    cases exit_cases hb with
    | accepted ha => cases a <;> cases ha <;> simp [closes] at hc
    | handed ha => cases a <;> cases ha <;> simp [closes] at hc
    | refused ha => cases a <;> cases ha <;> simp [closes] at hc
    | closed hclosed => simp [closes, hclosed] at hc
    | closing => rfl
    | opening => simp [closes] at hc

/-- The accepted elements of the current epoch, in terms of the abstract history. -/
lemma accepted_epoch {size : ℕ} {tr : List (QueueTransition τ T)} {s : QueueState τ T}
    (h : QueueRun size tr s) : accepted (epoch tr) = handedOut (epoch tr) ++ s.data.items := by
  have hlaw := Fifo.History.epoch_law (run_fifo h)
  rwa [epoch_fifoHistory, enqueued_fifoHistory, dequeued_fifoHistory] at hlaw

lemma handedOut_sublist {tr : List (QueueTransition τ T)} {s s' : QueueState τ T}
    (hempty : s.data.items = []) (h : Run BlockingQueue.call s tr s') :
    (handedOut tr).Sublist (accepted tr) := by
  have hsub := (run_fifo h).dequeued_sublist
  rw [hempty, enqueued_fifoHistory, dequeued_fifoHistory, List.nil_append] at hsub
  exact (List.sublist_append_left _ _).trans hsub

/-- First in, first out, exactly once, per flush epoch. Since the queue was last closed, the
accepted elements are those handed out followed by the queued ones. Over a whole run nothing
is handed out twice, out of order or without being accepted, what was accepted is handed out,
discarded by a flush or still queued, and nothing accepted before a flush comes out after it. -/
theorem fifo_exactly_once {size : ℕ} {tr : List (QueueTransition τ T)} {s : QueueState τ T}
    (h : QueueRun size tr s) :
    accepted (epoch tr) = handedOut (epoch tr) ++ s.data.items ∧
    (handedOut tr).Sublist (accepted tr) ∧
    (accepted tr).Perm (handedOut tr ++ discarded tr ++ s.data.items) ∧
    ∀ tr₁ x tr₂, tr = tr₁ ++ x :: tr₂ → closes x = true →
      accepted (epoch tr₁) = handedOut (epoch tr₁) ++ x.pre.data.items ∧
      x.post.data.items = [] ∧ (handedOut tr₂).Sublist (accepted tr₂) := by
  refine ⟨accepted_epoch h, handedOut_sublist rfl h, ?_, ?_⟩
  · have hperm := (run_fifo h).conservation
    rwa [enqueued_fifoHistory, dequeued_fifoHistory, lost_fifoHistory] at hperm
  · rintro tr₁ x tr₂ rfl hc
    obtain ⟨hpre, hx, hpost⟩ := h.middle
    have hempty := closes_post_empty hc hx
    exact ⟨accepted_epoch hpre, hempty, handedOut_sublist hempty hpost⟩

/-- One element is taken, one is discarded by a flush, and one is still queued. -/
theorem fifo_exactly_once_flushed :
    ∃ (tr : List (QueueTransition ℕ ℕ)) (s : QueueState ℕ ℕ),
      QueueRun 2 tr s ∧ accepted tr = [7, 8, 9] ∧ handedOut tr = [7] ∧ discarded tr = [8] ∧
      accepted (epoch tr) = handedOut (epoch tr) ++ s.data.items := by
  have hrun : QueueRun 2 _ (_ : QueueState ℕ ℕ) :=
    exec_run [.enter 0 (.put 7) [], .enter 0 (.offer 8) [], .enter 1 (.take 0) [],
      .enter 2 .beginFlush [], .enter 1 (.poll 0) [], .enter 2 .endFlush [],
      .enter 0 (.put 9) []] rfl
  exact ⟨_, _, hrun, rfl, rfl, rfl, (fifo_exactly_once hrun).1⟩

end Runs

end StupidAR
