import StupidAR.Monitor.Nonblocking
import StupidAR.Queue.Closed

/-!
# The non-blocking operations

`offer` and `poll` as the variants of `put` and `take` that give up instead of waiting. For
`poll`, which does not look at `m_flushing`, this rests on a closed queue being empty.
-/

namespace StupidAR

open Monitor

variable {τ T : Type}

namespace BlockingQueue

lemma offer_eq_put (e : T) (q : BlockingQueue T) :
    q.call (.offer e) = (q.call (.put e)).orLeave q (.stored false) := by
  obtain ⟨flushing, size, items⟩ := q
  by_cases hfull : items.length = size <;> cases flushing <;>
    simp [call, offer, put, waitUntil, Section.orLeave, hfull]

lemma poll_eq_take (out : T) {q : BlockingQueue T} (h : q.flushing = true → q.items = []) :
    q.call (.poll out) = (q.call (.take out)).orLeave q (.fetched false out) := by
  obtain ⟨flushing, size, items⟩ := q
  cases flushing with
  | false => cases items <;> simp [call, poll, take, waitUntil, Section.orLeave]
  | true =>
    obtain rfl : items = [] := h rfl
    simp [call, poll, take, waitUntil, Section.orLeave]

end BlockingQueue

lemma put_result {e : T} {q d : BlockingQueue T} {signals : List (Signal CondVar)} {r : Result T}
    (h : q.call (.put e) = .exit d signals r) :
    r = .stored true ∨ r = .stored false ∧ d = q ∧ signals = [] := by
  cases exit_cases h with
  | accepted => exact .inl rfl
  | handed ha => cases ha
  | refused => exact .inr ⟨rfl, rfl, rfl⟩

lemma take_result {out : T} {q d : BlockingQueue T} {signals : List (Signal CondVar)}
    {r : Result T} (h : q.call (.take out) = .exit d signals r) :
    (∃ x, r = .fetched true x) ∨ r = .fetched false out ∧ d = q ∧ signals = [] := by
  cases exit_cases h with
  | accepted ha => cases ha
  | handed => exact .inl ⟨_, rfl⟩
  | refused => exact .inr ⟨rfl, rfl, rfl⟩

section Reachable

variable [DecidableEq τ] {size : ℕ} {tr : List (QueueTransition τ T)} {s : QueueState τ T} {t : τ}

lemma offer_proceeds {e : T} (ht : s.pool.phase t = .idle)
    (h : Proceeds BlockingQueue.call s t (.put e) (.stored false)) :
    Returns BlockingQueue.call s t (.put e) (.stored true) ∧
    Returns BlockingQueue.call s t (.offer e) (.stored true) ∧ ∀ us s',
      Step BlockingQueue.call s (.enter t (.offer e) us) (.returns (.offer e) (.stored true)) s' ↔
        Step BlockingQueue.call s (.enter t (.put e) us) (.returns (.put e) (.stored true)) s' := by
  obtain ⟨r, hne, hput, hoffer, hsame⟩ :=
    variant_proceeds (BlockingQueue.offer_eq_put e s.data) ht h
  obtain ⟨d, signals, hb⟩ := hput.exit
  rcases put_result hb with rfl | ⟨rfl, -⟩
  · exact ⟨hput, hoffer, hsame⟩
  · exact absurd rfl hne

lemma poll_proceeds {out : T} (hs : s.data.flushing = true → s.data.items = [])
    (ht : s.pool.phase t = .idle)
    (h : Proceeds BlockingQueue.call s t (.take out) (.fetched false out)) :
    ∃ x, Returns BlockingQueue.call s t (.take out) (.fetched true x) ∧
    Returns BlockingQueue.call s t (.poll out) (.fetched true x) ∧ ∀ us s',
      Step BlockingQueue.call s (.enter t (.poll out) us)
          (.returns (.poll out) (.fetched true x)) s' ↔
        Step BlockingQueue.call s (.enter t (.take out) us)
          (.returns (.take out) (.fetched true x)) s' := by
  obtain ⟨r, hne, htake, hpoll, hsame⟩ :=
    variant_proceeds (BlockingQueue.poll_eq_take out hs) ht h
  obtain ⟨d, signals, hb⟩ := htake.exit
  rcases take_result hb with ⟨x, rfl⟩ | ⟨rfl, -⟩
  · exact ⟨x, htake, hpoll, hsame⟩
  · exact absurd rfl hne

lemma offer_refuses {e : T} (ht : s.pool.phase t = .idle)
    (h : ¬Proceeds BlockingQueue.call s t (.put e) (.stored false)) :
    Returns BlockingQueue.call s t (.offer e) (.stored false) ∧
      ∀ us o s', Step BlockingQueue.call s (.enter t (.offer e) us) o s' → s' = s := by
  refine variant_refuses (BlockingQueue.offer_eq_put e s.data) ?_ ht h
  intro d signals hb
  rcases put_result hb with hr | ⟨-, hd⟩
  · cases hr
  · exact hd

lemma poll_refuses {out : T} (hs : s.data.flushing = true → s.data.items = [])
    (ht : s.pool.phase t = .idle)
    (h : ¬Proceeds BlockingQueue.call s t (.take out) (.fetched false out)) :
    Returns BlockingQueue.call s t (.poll out) (.fetched false out) ∧
      ∀ us o s', Step BlockingQueue.call s (.enter t (.poll out) us) o s' → s' = s := by
  refine variant_refuses (BlockingQueue.poll_eq_take out hs) ?_ ht h
  intro d signals hb
  rcases take_result hb with ⟨x, hr⟩ | ⟨-, hd⟩
  · cases hr
  · exact hd

/-- In every reachable state `offer` and `poll` return true exactly when `put` and `take`
would get through at once, and then do the same; otherwise they return false and change
nothing. -/
theorem nonblocking_agrees (h : QueueRun size tr s) (ht : s.pool.phase t = .idle) :
    (∀ e,
      (Returns BlockingQueue.call s t (.offer e) (.stored true) ↔
        Proceeds BlockingQueue.call s t (.put e) (.stored false)) ∧
      (Proceeds BlockingQueue.call s t (.put e) (.stored false) →
        Returns BlockingQueue.call s t (.put e) (.stored true) ∧
        Returns BlockingQueue.call s t (.offer e) (.stored true) ∧ ∀ us s',
          Step BlockingQueue.call s (.enter t (.offer e) us)
              (.returns (.offer e) (.stored true)) s' ↔
            Step BlockingQueue.call s (.enter t (.put e) us)
              (.returns (.put e) (.stored true)) s') ∧
      (¬Proceeds BlockingQueue.call s t (.put e) (.stored false) →
        Returns BlockingQueue.call s t (.offer e) (.stored false) ∧
          ∀ us o s', Step BlockingQueue.call s (.enter t (.offer e) us) o s' → s' = s)) ∧
    ∀ out,
      ((∃ x, Returns BlockingQueue.call s t (.poll out) (.fetched true x)) ↔
        Proceeds BlockingQueue.call s t (.take out) (.fetched false out)) ∧
      (Proceeds BlockingQueue.call s t (.take out) (.fetched false out) →
        ∃ x, Returns BlockingQueue.call s t (.take out) (.fetched true x) ∧
        Returns BlockingQueue.call s t (.poll out) (.fetched true x) ∧ ∀ us s',
          Step BlockingQueue.call s (.enter t (.poll out) us)
              (.returns (.poll out) (.fetched true x)) s' ↔
            Step BlockingQueue.call s (.enter t (.take out) us)
              (.returns (.take out) (.fetched true x)) s') ∧
      (¬Proceeds BlockingQueue.call s t (.take out) (.fetched false out) →
        Returns BlockingQueue.call s t (.poll out) (.fetched false out) ∧
          ∀ us o s', Step BlockingQueue.call s (.enter t (.poll out) us) o s' → s' = s) := by
  have hs := (reachable_covered h).1.closed_empty
  refine ⟨fun e => ⟨⟨?_, ?_⟩, offer_proceeds ht, offer_refuses ht⟩,
    fun out => ⟨⟨?_, ?_⟩, poll_proceeds hs ht, poll_refuses hs ht⟩⟩
  · intro hoffer
    by_contra hp
    cases hoffer.unique (offer_refuses ht hp).1
  · exact fun hp => (offer_proceeds ht hp).2.1
  · rintro ⟨x, hpoll⟩
    by_contra hp
    cases hpoll.unique (poll_refuses hs ht hp).1
  · intro hp
    obtain ⟨x, -, hpoll, -⟩ := poll_proceeds hs ht hp
    exact ⟨x, hpoll⟩

/-- A full queue with a sleeping putter: `poll` takes the item that `take` would take. -/
theorem nonblocking_agrees_full :
    ∃ (tr : List (QueueTransition ℕ ℕ)) (s : QueueState ℕ ℕ), QueueRun 1 tr s ∧
      s.pool.phase 1 = .asleep .notFull (.put 8) ∧
      ∃ x, Returns BlockingQueue.call s 2 (.poll 0) (.fetched true x) := by
  have hrun : QueueRun 1 _ (_ : QueueState ℕ ℕ) :=
    exec_run [.enter 0 (.put 7) [], .enter 1 (.put 8) []] rfl
  refine ⟨_, _, hrun, rfl, ((nonblocking_agrees hrun (t := 2) rfl).2 0).1.mpr ?_⟩
  exact (proceeds_iff rfl).mpr ⟨_, _, .fetched true 7, rfl, fun h => by cases h⟩

end Reachable

end StupidAR
