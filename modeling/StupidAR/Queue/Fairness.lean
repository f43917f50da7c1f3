import StupidAR.Queue.History

/-!
# No fairness

A thread woken in `take` competes for the lock with every other thread, and loses to one
that polls the element first. Nothing bounds how often this happens.
-/

namespace StupidAR

open Monitor

variable {τ T : Type} [DecidableEq τ]

/-- Thread `t` sleeps in `take` on an open empty queue, and nobody else is inside. -/
def starving (size : ℕ) (t : τ) (out : T) : QueueState τ T :=
  ⟨.ofSize size, Pool.empty.assign t (.asleep .notEmpty (.take out))⟩

/-- Thread `t` has been woken and does not have the lock yet. -/
def overtaken (size : ℕ) (t : τ) (out : T) (items : List T) : QueueState τ T :=
  ⟨⟨false, size, items⟩, Pool.empty.assign t (.woken .notEmpty (.take out))⟩

section Cycle

variable {size : ℕ} {t u : τ} {out e : T}

lemma starving_idle (hu : u ≠ t) : (starving size t out).pool.phase u = .idle := by
  simp [starving, Pool.assign_phase_of_ne _ _ hu]

lemma starving_asleep :
    (starving size t out).pool.phase t = .asleep .notEmpty (.take out) := by
  simp [starving]

lemma overtaken_idle (items : List T) (hu : u ≠ t) :
    (overtaken size t out items).pool.phase u = .idle := by
  simp [overtaken, Pool.assign_phase_of_ne _ _ hu]

lemma assign_assign {κ α : Type} (P : Pool τ κ α) (t : τ) (x y : Phase κ α) :
    (P.assign t x).assign t y = P.assign t y := by
  apply Pool.ext_phase
  simp [Pool.assign]

/-- The `put` of another thread wakes the sleeping one. -/
lemma starving_put (hsize : 1 ≤ size) (hu : u ≠ t) :
    Step BlockingQueue.call (starving size t out) (.enter u (.put e) [t])
      (.returns (.put e) (.stored true)) (overtaken size t out [e]) := by
  have hcall : (starving size t out).data.call (.put e) =
      .exit ⟨false, size, [e]⟩ [.one .notEmpty] (.stored true) := by
    have hroom : 0 ≠ size := by omega
    simp [starving, BlockingQueue.call, BlockingQueue.put, BlockingQueue.ofSize, waitUntil, hroom]
  refine .exit (.enter (starving_idle hu)) hcall ?_
  have hmem : t ∈ (starving size t out).pool.sleepers .notEmpty :=
    (Pool.mem_sleepers _ _ _).mpr ⟨_, starving_asleep⟩
  have hne : (starving size t out).pool.sleepers .notEmpty ≠ ∅ := Finset.ne_empty_of_mem hmem
  rw [Pool.assign_of_phase_eq _ (starving_idle hu)]
  simp only [deliver, hne, hmem, if_false, if_true, Pool.wake_of_asleep _ starving_asleep]
  rw [starving, assign_assign]

/-- A `poll` gets the element before the woken thread gets the lock. -/
lemma overtaken_poll (hu : u ≠ t) :
    Step BlockingQueue.call (overtaken size t out [e]) (.enter u (.poll out) [])
      (.returns (.poll out) (.fetched true e)) (overtaken size t out []) := by
  have hcall : (overtaken size t out [e]).data.call (.poll out) =
      .exit ⟨false, size, []⟩ [.one .notFull] (.fetched true e) := rfl
  refine .exit (.enter (overtaken_idle [e] hu)) hcall ?_
  have hnobody : (overtaken size t out [e]).pool.sleepers .notFull = ∅ := by
    simp [overtaken, Pool.sleepers_assign, Phase.isAsleepOn]
  rw [Pool.assign_of_phase_eq _ (overtaken_idle [e] hu)]
  simp only [deliver, hnobody, if_true]
  rfl

/-- The woken thread finds nothing and sleeps again. -/
lemma overtaken_resume :
    Step BlockingQueue.call (overtaken size t out []) (.resume t [])
      (.waits (.take out) .notEmpty) (starving size t out) := by
  have hready : Ready (overtaken size t out []) (.resume t []) t (.take out) [] :=
    .resume (c := .notEmpty) (by simp [overtaken])
  have hcall : (overtaken size t out []).data.call (.take out) = .wait .notEmpty := rfl
  have hsleep := Step.sleep hready hcall
  rwa [overtaken, assign_assign] at hsleep

/-- An element passes by the sleeping thread. -/
def passBy (size : ℕ) (t u : τ) (out e : T) : List (QueueTransition τ T) :=
  [⟨starving size t out, .enter u (.put e) [t], .returns (.put e) (.stored true),
      overtaken size t out [e]⟩,
    ⟨overtaken size t out [e], .enter u (.poll out) [], .returns (.poll out) (.fetched true e),
      overtaken size t out []⟩,
    ⟨overtaken size t out [], .resume t [], .waits (.take out) .notEmpty, starving size t out⟩]

lemma passBy_run (hsize : 1 ≤ size) (hu : u ≠ t) :
    Run BlockingQueue.call (starving size t out) (passBy size t u out e) (starving size t out) :=
  .snoc (.snoc (.snoc .nil (starving_put hsize hu)) (overtaken_poll hu)) overtaken_resume

end Cycle

/-- Passing elements by, any number of them. -/
lemma passBy_runs {size : ℕ} {t u : τ} (hsize : 1 ≤ size) (hu : u ≠ t) (out : T) (es : List T) :
    Run BlockingQueue.call (starving size t out) (es.flatMap (passBy size t u out))
      (starving size t out) := by
  induction es with
  | nil => exact .nil
  | cons e es ih => exact (passBy_run hsize hu).append ih

/-- What happens while an element passes by: the `put` of `u` wakes `t`, `u` polls the element,
and `t` goes back to sleep. -/
def passedBy (t u : τ) (out e : T) :
    List (Event τ (Call T) × Outcome CondVar (Call T) (Result T)) :=
  [(.enter u (.put e) [t], .returns (.put e) (.stored true)),
    (.enter u (.poll out) [], .returns (.poll out) (.fetched true e)),
    (.resume t [], .waits (.take out) .notEmpty)]

/-- `take` does not bound how long it waits. In this run `t` goes to sleep in `take`; then the
elements of `es` are put one after the other, each wakes `t`, each is polled by `u`, and `t` is
still in its call. -/
theorem take_passed_by {size : ℕ} (hsize : 1 ≤ size) {t u : τ} (hu : u ≠ t) (out : T)
    (es : List T) :
    ∃ (tr : List (QueueTransition τ T)) (s : QueueState τ T), QueueRun size tr s ∧
      tr.map (fun x => (x.event, x.outcome)) =
        (.enter t (.take out) [], .waits (.take out) .notEmpty) ::
          es.flatMap (passedBy t u out) ∧
      s.pool.phase t = .asleep .notEmpty (.take out) := by
  have hfirst : Step BlockingQueue.call (initial τ T size) (.enter t (.take out) [])
      (.waits (.take out) .notEmpty) (starving size t out) :=
    .sleep (.enter rfl) rfl
  have hrest := passBy_runs hsize hu out es
  refine ⟨_, _, (Run.single hfirst).append hrest, ?_, starving_asleep⟩
  rw [List.map_append, List.map_flatMap]
  rfl

theorem take_passed_by_two :
    ∃ (tr : List (QueueTransition ℕ ℕ)) (s : QueueState ℕ ℕ), QueueRun 1 tr s ∧
      tr.map (fun x => x.event) = [.enter 0 (.take 0) [], .enter 1 (.put 7) [0],
        .enter 1 (.poll 0) [], .resume 0 [], .enter 1 (.put 8) [0], .enter 1 (.poll 0) [],
        .resume 0 []] ∧
      s.pool.phase 0 = .asleep .notEmpty (.take 0) := by
  obtain ⟨tr, s, hrun, hevents, hasleep⟩ :=
    take_passed_by (le_refl 1) (show (1 : ℕ) ≠ 0 by decide) 0 [7, 8]
  refine ⟨tr, s, hrun, ?_, hasleep⟩
  have hfirst := congrArg (List.map Prod.fst) hevents
  rwa [List.map_map] at hfirst

end StupidAR
