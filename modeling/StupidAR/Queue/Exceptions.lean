import StupidAR.Monitor.Failures
import StupidAR.Queue.Closed

/-!
# Exceptions in the blocking queue

The member functions over a `T` whose construction in `push_back` or assignment to `out` may
throw. An exception leaves `m_items` as it was and skips the `notify_one` behind it.
-/

namespace StupidAR

open Monitor

variable {τ T : Type}

/-- Whether the call reached its `push_back`, or its assignment to `out`. -/
def Result.transferred : Result T → Bool
  | .stored ok => ok
  | .fetched ok _ => ok
  | .done => false

namespace BlockingQueue

def putOrThrow (e : T) (throws : Bool) (q : BlockingQueue T) :
    Section (BlockingQueue T) CondVar (Option (Result T)) :=
  waitUntil .notFull (q.items.length != q.size || q.flushing) <|
    if q.flushing then .exit q [] (some (.stored false))
    else if throws then .exit q [] none
    else .exit { q with items := q.items ++ [e] } [.one .notEmpty] (some (.stored true))

def offerOrThrow (e : T) (throws : Bool) (q : BlockingQueue T) :
    Section (BlockingQueue T) CondVar (Option (Result T)) :=
  if q.items.length == q.size || q.flushing then .exit q [] (some (.stored false))
  else if throws then .exit q [] none
  else .exit { q with items := q.items ++ [e] } [.one .notEmpty] (some (.stored true))

def takeOrThrow (out : T) (throws : Bool) (q : BlockingQueue T) :
    Section (BlockingQueue T) CondVar (Option (Result T)) :=
  waitUntil .notEmpty (q.items.length != 0 || q.flushing) <|
    if q.flushing then .exit q [] (some (.fetched false out))
    else
      match q.items with
      | e :: rest =>
        if throws then .exit q [] none
        else .exit { q with items := rest } [.one .notFull] (some (.fetched true e))
      | [] => .exit q [] (some (.fetched false out)) -- not reached: the predicate excludes it

def pollOrThrow (out : T) (throws : Bool) (q : BlockingQueue T) :
    Section (BlockingQueue T) CondVar (Option (Result T)) :=
  match q.items with
  | e :: rest =>
    if throws then .exit q [] none
    else .exit { q with items := rest } [.one .notFull] (some (.fetched true e))
  | [] => .exit q [] (some (.fetched false out))

/-- A call, and whether its construction or assignment of `T` throws once it comes to it.
`begin_flush` and `end_flush` have none. The result is `none` after an exception. -/
def attempt : Call T × Bool → BlockingQueue T →
    Section (BlockingQueue T) CondVar (Option (Result T))
  | (.put e, throws), q => putOrThrow e throws q
  | (.offer e, throws), q => offerOrThrow e throws q
  | (.take out, throws), q => takeOrThrow out throws q
  | (.poll out, throws), q => pollOrThrow out throws q
  | (.beginFlush, _), q =>
    if q.flushing then .exit q [] (some .done)
    else .exit { q with flushing := true, items := [] } [.all .notFull, .all .notEmpty] (some .done)
  | (.endFlush, _), q => .exit { q with flushing := false } [] (some .done)

/-- An exception takes the place of a transfer, and nothing else changes. -/
theorem attempt_eq : attempt (T := T) = failing call Result.transferred := by
  funext x q
  obtain ⟨a, throws⟩ := x
  obtain ⟨flushing, size, items⟩ := q
  cases a with
  | put e =>
    cases flushing <;> by_cases hfull : items.length = size <;> cases throws <;>
      simp [attempt, putOrThrow, failing, call, put, waitUntil, Result.transferred, hfull]
  | offer e =>
    cases flushing <;> by_cases hfull : items.length = size <;> cases throws <;>
      simp [attempt, offerOrThrow, failing, call, offer, Result.transferred, hfull]
  | take out =>
    cases flushing <;> cases items <;> cases throws <;>
      simp [attempt, takeOrThrow, failing, call, take, waitUntil, Result.transferred]
  | poll out =>
    cases items <;> cases throws <;>
      simp [attempt, pollOrThrow, failing, call, poll, Result.transferred]
  | beginFlush =>
    cases flushing <;> simp [attempt, failing, call, beginFlush, flush, Result.transferred]
  | endFlush => simp [attempt, failing, call, endFlush, Result.transferred]

end BlockingQueue

abbrev ThrowingState (τ T : Type) := State (BlockingQueue T) τ CondVar (Call T × Bool)

abbrev ThrowingTransition (τ T : Type) :=
  Transition (BlockingQueue T) τ CondVar (Call T × Bool) (Option (Result T))

/-- Any calls in any interleaving on a new queue, any of which may throw. -/
abbrev ThrowingRun {τ T : Type} [DecidableEq τ] (size : ℕ) (tr : List (ThrowingTransition τ T))
    (s : ThrowingState τ T) : Prop :=
  Run BlockingQueue.attempt ⟨.ofSize size, .empty⟩ tr s

/-- No woken thread is left, and somebody sleeps whom the queue would let through. -/
def Stranded (s : ThrowingState τ T) : Prop :=
  (∀ t c x, s.pool.phase t ≠ .woken c x) ∧
    ((s.data.items ≠ [] ∧
        ∃ t out throws, s.pool.phase t = .asleep .notEmpty (.take out, throws)) ∨
      (s.data.items.length < s.data.size ∧
        ∃ t e throws, s.pool.phase t = .asleep .notFull (.put e, throws)))

section Sleepers

variable {s : ThrowingState τ T}

/-- Who sleeps on a condition variable is in the call that waits on it. -/
lemma asleep_iff (ht : s.pool.Targeted fun x => x.1.target) {c : CondVar} (f : T → Call T)
    (hf : ∀ a : Call T, a.target = some c → ∃ e, a = f e) :
    (∃ t e throws, s.pool.phase t = .asleep c (f e, throws)) ↔ (s.pool.sleepers c).Nonempty := by
  rw [Pool.sleepers_nonempty_iff]
  constructor
  · rintro ⟨t, e, throws, hp⟩
    exact ⟨t, _, hp⟩
  · rintro ⟨t, ⟨a, throws⟩, hp⟩
    obtain ⟨e, rfl⟩ := hf a (ht t _ _ (.inl hp))
    exact ⟨t, e, throws, hp⟩

/-- With nobody woken, an open queue covers its supply where nobody sleeps or nothing is left. -/
lemma covered_open_iff (hopen : s.data.flushing = false)
    (hwoken : ∀ t c x, s.pool.phase t ≠ .woken c x) : Covered BlockingQueue.supply s ↔
      ∀ c, (s.pool.sleepers c).Nonempty → s.data.available c = 0 := by
  refine forall_congr' fun c => imp_congr_right fun _ => ?_
  rw [BlockingQueue.supply_open hopen, Pool.wokenFrom_eq_empty hwoken, Finset.card_empty]
  simp

/-- With nobody woken, threads are stranded exactly where the supply is not covered. -/
theorem stranded_iff (ht : s.pool.Targeted fun x => x.1.target)
    (hclosed : s.data.flushing = true → ∀ c, s.pool.sleepers c = ∅) :
    Stranded s ↔ (∀ t c x, s.pool.phase t ≠ .woken c x) ∧ ¬Covered BlockingQueue.supply s := by
  have htake : ∀ a : Call T, a.target = some .notEmpty → ∃ out, a = .take out := by
    rintro (_ | _ | out | _ | _ | _) h <;> first | exact ⟨out, rfl⟩ | cases h
  have hput : ∀ a : Call T, a.target = some .notFull → ∃ e, a = .put e := by
    rintro (e | _ | _ | _ | _ | _) h <;> first | exact ⟨e, rfl⟩ | cases h
  rw [Stranded, asleep_iff ht _ htake, asleep_iff ht _ hput]
  refine and_congr_right fun hwoken => ?_
  cases hf : s.data.flushing with
  | true => simp [Covered, hclosed hf]
  | false =>
    rw [covered_open_iff hf hwoken]
    push Not
    constructor
    · rintro (⟨hitems, hsleep⟩ | ⟨hroom, hsleep⟩)
      · exact ⟨.notEmpty, hsleep, by simpa using hitems⟩
      · exact ⟨.notFull, hsleep, by simpa using Nat.sub_ne_zero_of_lt hroom⟩
    · rintro ⟨c, hsleep, hleft⟩
      cases c with
      | notEmpty => exact .inl ⟨by simpa using hleft, hsleep⟩
      | notFull => exact .inr ⟨Nat.lt_of_sub_ne_zero hleft, hsleep⟩

end Sleepers

section Reachable

variable [DecidableEq τ] {size : ℕ} {tr : List (ThrowingTransition τ T)} {s : ThrowingState τ T}

lemma throwing_covered (h : ThrowingRun size tr s)
    (hspare : ∀ x ∈ tr, x.outcome.Fails → Spare BlockingQueue.supply x.pre x.event.thread) :
    s.data.Sound size ∧ (s.pool.Targeted fun x => x.1.target) ∧ Covered BlockingQueue.supply s := by
  rw [ThrowingRun, BlockingQueue.attempt_eq] at h
  exact h.failing_covered (queue_accounted size) (BlockingQueue.sound_ofSize size) hspare

omit [DecidableEq τ] in
lemma not_stranded_of_covered (ht : s.pool.Targeted fun x => x.1.target)
    (hs : Covered BlockingQueue.supply s) : ¬Stranded s := by
  have hclosed : s.data.flushing = true → ∀ c, s.pool.sleepers c = ∅ := fun hf c =>
    hs.sleepers_empty (BlockingQueue.supply_closed hf c)
  rw [stranded_iff ht hclosed]
  exact fun h => h.2 hs

lemma woken_leave_iff {t : τ} : (∀ u c x, (s.pool.assign t .idle).phase u ≠ .woken c x) ↔
    ¬∃ u c x, u ≠ t ∧ s.pool.phase u = .woken c x := by
  constructor
  · rintro h ⟨u, c, x, hu, hx⟩
    refine h u c x ?_
    rwa [Pool.assign_phase_of_ne _ _ hu]
  · intro h u c x hx
    by_cases hu : u = t
    · subst hu
      rw [Pool.assign_phase_self] at hx
      cases hx
    · rw [Pool.assign_phase_of_ne _ _ hu] at hx
      exact h ⟨u, c, x, hu, hx⟩

/-- The step of a throwing thread strands somebody exactly when that thread held a
notification that another sleeper needs and nobody else was woken. -/
lemma stranded_leave_iff (ht : s.pool.Targeted fun x => x.1.target)
    (hs : Covered BlockingQueue.supply s) {t : τ} (hawake : ∀ c, t ∉ s.pool.sleepers c) :
    ¬Stranded (⟨s.data, s.pool.assign t .idle⟩ : ThrowingState τ T) ↔
      Spare BlockingQueue.supply s t ∨ ∃ u c x, u ≠ t ∧ s.pool.phase u = .woken c x := by
  have ht' : (s.pool.assign t .idle).Targeted fun x => x.1.target :=
    ht.assign t _ (by rintro c x (hx | hx) <;> cases hx)
  have hclosed : s.data.flushing = true → ∀ c, (s.pool.assign t .idle).sleepers c = ∅ := by
    intro hf c
    have hsub := s.pool.sleepers_leave_subset t c
    rwa [hs.sleepers_empty (BlockingQueue.supply_closed hf c), Finset.subset_empty] at hsub
  rw [stranded_iff ht' hclosed, hs.leave_iff hawake, woken_leave_iff, ← not_or, not_not, or_comm]

/-- An exception leaves the data alone. As long as every thread that throws is spare, no
state is stranded, and the next exception strands somebody only if its thread is not spare,
and does so at once if no other thread is woken. -/
theorem exception_strands_iff (h : ThrowingRun size tr s) :
    (∀ ev o s', Step BlockingQueue.attempt s ev o s' → o.Fails → s'.data = s.data) ∧
    ((∀ x ∈ tr, x.outcome.Fails → Spare BlockingQueue.supply x.pre x.event.thread) →
      ¬Stranded s ∧
      ∀ ev o s', Step BlockingQueue.attempt s ev o s' → o.Fails →
        (¬Stranded s' ↔ Spare BlockingQueue.supply s ev.thread ∨
          ∃ u c x, u ≠ ev.thread ∧ s.pool.phase u = .woken c x)) := by
  rw [BlockingQueue.attempt_eq]
  refine ⟨?_, fun hspare => ?_⟩
  · intro ev o s' hstep ho
    rw [(hstep.fails ho).1]
  · obtain ⟨-, ht, hs⟩ := throwing_covered h hspare
    refine ⟨not_stranded_of_covered ht hs, ?_⟩
    intro ev o s' hstep ho
    obtain ⟨rfl, x, us, d, signals, r, hr, -⟩ := hstep.fails ho
    exact stranded_leave_iff ht hs fun c => hr.not_asleep c

/-- Two takers sleep, and the first, whose assignment will throw, is notified of an item. -/
def notifiedTaker : ThrowingState ℕ ℕ where
  data := ⟨false, 1, [7]⟩
  pool := (((Pool.empty.assign 0 (.asleep .notEmpty (.take 0, true))).assign 1
    (.asleep .notEmpty (.take 0, false))).assign 2 .idle).wake 0

lemma notifiedTaker_reached :
    ∃ tr, ThrowingRun 1 tr notifiedTaker ∧ ∀ x ∈ tr, ¬x.outcome.Fails := by
  let P : Pool ℕ CondVar (Call ℕ × Bool) :=
    Pool.empty.assign 0 (.asleep .notEmpty (.take 0, true))
  have h0 : Step BlockingQueue.attempt (⟨.ofSize 1, .empty⟩ : ThrowingState ℕ ℕ)
      (.enter 0 (.take 0, true) []) (.waits (.take 0, true) .notEmpty) ⟨.ofSize 1, P⟩ :=
    step_cases rfl
  have h1 : Step BlockingQueue.attempt (⟨.ofSize 1, P⟩ : ThrowingState ℕ ℕ)
      (.enter 1 (.take 0, false) []) (.waits (.take 0, false) .notEmpty)
      ⟨.ofSize 1, P.assign 1 (.asleep .notEmpty (.take 0, false))⟩ := step_cases rfl
  have h2 : Step BlockingQueue.attempt
      (⟨.ofSize 1, P.assign 1 (.asleep .notEmpty (.take 0, false))⟩ : ThrowingState ℕ ℕ)
      (.enter 2 (.put 7, false) [0]) (.returns (.put 7, false) (some (.stored true)))
      notifiedTaker := step_cases rfl
  refine ⟨_, ((Run.nil.snoc h0).snoc h1).snoc h2, ?_⟩
  simp [Outcome.Fails]

/-- A `poll` that throws on the item takes no notification away. -/
theorem exception_strands_iff_poll :
    ∃ (tr : List (ThrowingTransition ℕ ℕ)) (s : ThrowingState ℕ ℕ), ThrowingRun 1 tr s ∧
      (∃ x ∈ tr, x.outcome.Fails) ∧ s.data.items = [7] ∧
      s.pool.phase 1 = .asleep .notEmpty (.take 0, false) ∧ ¬Stranded s := by
  obtain ⟨tr, hrun, hnone⟩ := notifiedTaker_reached
  have hpoll : Step BlockingQueue.attempt notifiedTaker (.enter 3 (.poll 0, true) [])
      (.returns (.poll 0, true) none) _ := step_cases rfl
  refine ⟨_, _, hrun.snoc hpoll, ?_, rfl, rfl, ((exception_strands_iff (hrun.snoc hpoll)).2 ?_).1⟩
  · exact ⟨_, List.mem_append_right _ (List.mem_singleton_self _), _, rfl⟩
  · intro x hx hfails
    rcases List.mem_append.mp hx with hx | hx
    · exact absurd hfails (hnone x hx)
    · rw [List.mem_singleton.mp hx]
      exact spare_of_idle rfl

/-- The notified taker throws: the item is there, nobody is woken, and the other taker sleeps. -/
theorem exception_strands_taker :
    ∃ (tr : List (ThrowingTransition ℕ ℕ)) (s s' : ThrowingState ℕ ℕ),
      ThrowingRun 1 tr s ∧
      Step BlockingQueue.attempt s (.resume 0 []) (.returns (.take 0, true) none) s' ∧
      s'.data.items = [7] ∧ s'.pool.phase 1 = .asleep .notEmpty (.take 0, false) ∧
      Stranded s' := by
  obtain ⟨tr, hrun, -⟩ := notifiedTaker_reached
  have hthrow : Step BlockingQueue.attempt notifiedTaker (.resume 0 [])
      (.returns (.take 0, true) none) ⟨notifiedTaker.data, notifiedTaker.pool.assign 0 .idle⟩ :=
    step_cases rfl
  refine ⟨tr, _, _, hrun, hthrow, rfl, rfl, ?_, .inl ⟨List.cons_ne_nil 7 [], 1, 0, false, rfl⟩⟩
  intro t c x ht
  have hwaiting : (notifiedTaker.pool.assign 0 .idle).waiting = {1} := by decide
  have hmem : t ∈ (notifiedTaker.pool.assign 0 .idle).waiting := by
    rw [Pool.mem_waiting, ht]
    exact fun h => by cases h
  rw [hwaiting, Finset.mem_singleton] at hmem
  subst hmem
  cases ht

end Reachable

end StupidAR
