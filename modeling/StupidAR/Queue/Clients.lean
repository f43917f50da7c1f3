import Mathlib.Algebra.Order.BigOperators.Group.Finset
import StupidAR.Queue.Closed
import StupidAR.Queue.History

/-!
# Producers and consumers

A finite set of threads, each with a fixed list of `put` calls or of `take` calls to make on
one queue that nobody flushes.
-/

namespace StupidAR

open Monitor

variable {τ T : Type}

/-- A thread's workload: the elements it puts, or the variables it takes into. -/
inductive Role (T : Type) where
  | producer (es : List T)
  | consumer (outs : List T)

namespace Role

def calls : Role T → List (Call T)
  | producer es => es.map .put
  | consumer outs => outs.map .take

def puts : Role T → ℕ
  | producer es => es.length
  | consumer _ => 0

def takes : Role T → ℕ
  | producer _ => 0
  | consumer outs => outs.length

end Role

/-- The queue with the calls that each thread has still to enter. -/
structure ClientState (τ T : Type) where
  queue : QueueState τ T
  todo : τ → List (Call T)

section Model

variable [DecidableEq τ]

/-- A client enters its next call, or continues the one it is in. -/
inductive ClientStep (s : ClientState τ T) : Event τ (Call T) →
    Outcome CondVar (Call T) (Result T) → ClientState τ T → Prop
  | enter {t : τ} {a : Call T} {rest : List (Call T)} {us : List τ}
    {o : Outcome CondVar (Call T) (Result T)} {q : QueueState τ T} (htodo : s.todo t = a :: rest)
    (h : Step BlockingQueue.call s.queue (.enter t a us) o q) :
    ClientStep s (.enter t a us) o ⟨q, Function.update s.todo t rest⟩
  | resume {t : τ} {us : List τ} {o : Outcome CondVar (Call T) (Result T)} {q : QueueState τ T}
    (h : Step BlockingQueue.call s.queue (.resume t us) o q) :
    ClientStep s (.resume t us) o ⟨q, s.todo⟩
  | spurious {t : τ} {o : Outcome CondVar (Call T) (Result T)} {q : QueueState τ T}
    (h : Step BlockingQueue.call s.queue (.spurious t) o q) :
    ClientStep s (.spurious t) o ⟨q, s.todo⟩

/-- The runs of the clients with the given roles on a new queue. -/
inductive ClientRun (size : ℕ) (roles : τ → Role T) :
    List (QueueTransition τ T) → ClientState τ T → Prop
  | nil : ClientRun size roles [] ⟨initial τ T size, fun t => (roles t).calls⟩
  | snoc {tr : List (QueueTransition τ T)} {s s' : ClientState τ T} {ev : Event τ (Call T)}
    {o : Outcome CondVar (Call T) (Result T)} (hrun : ClientRun size roles tr s)
    (hstep : ClientStep s ev o s') :
    ClientRun size roles (tr ++ [⟨s.queue, ev, o, s'.queue⟩]) s'

end Model

/-- Every thread has returned from its last call. -/
def ClientState.Finished (s : ClientState τ T) : Prop :=
  ∀ t, s.queue.pool.phase t = .idle ∧ s.todo t = []

def Result.ok : Result T → Bool
  | .stored ok => ok
  | .fetched ok _ => ok
  | .done => true

def Call.isPut : Call T → Bool
  | put _ => true
  | _ => false

def Call.isTake : Call T → Bool
  | take _ => true
  | _ => false

/-! ### The unfinished calls -/

def currentCall : Phase CondVar (Call T) → List (Call T)
  | .idle => []
  | .asleep _ a | .woken _ a => [a]

/-- The calls that a thread has not returned from, the one it is in first. -/
def ClientState.unfinished (s : ClientState τ T) (t : τ) : List (Call T) :=
  currentCall (s.queue.pool.phase t) ++ s.todo t

/-- What a role may still have to do. -/
def Role.Allows (r : Role T) (a : Call T) : Prop :=
  match r with
  | producer _ => a.isPut = true
  | consumer _ => a.isTake = true

section Unfinished

variable [DecidableEq τ]

lemma currentCall_deliver {signals : List (Signal CondVar)} {us : List τ}
    {P Q : Pool τ CondVar (Call T)} (h : deliver signals us P = some Q) (t : τ) :
    currentCall (Q.phase t) = currentCall (P.phase t) := by
  rcases deliver_phase h t with heq | ⟨c, a, hasleep, hwoken⟩
  · rw [heq]
  · rw [hasleep, hwoken]
    rfl

/-- A thread that goes to sleep, or is woken, stays in its call. -/
lemma unfinished_assign {s : ClientState τ T} {t : τ} {x : Phase CondVar (Call T)}
    {todo : τ → List (Call T)} {d : BlockingQueue T}
    (ht : currentCall x ++ todo t = s.unfinished t) (hother : ∀ u, u ≠ t → todo u = s.todo u) :
    (⟨⟨d, s.queue.pool.assign t x⟩, todo⟩ : ClientState τ T).unfinished = s.unfinished := by
  funext u
  by_cases hu : u = t
  · subst hu
    simpa [ClientState.unfinished] using ht
  · simp [ClientState.unfinished, Pool.assign_phase_of_ne _ _ hu, hother u hu]

/-- A thread that leaves has finished its call; the signals finish no other call. -/
lemma unfinished_exit {s : ClientState τ T} {t : τ} {rest : List (Call T)}
    {todo : τ → List (Call T)} {d : BlockingQueue T} {signals : List (Signal CondVar)}
    {us : List τ} {P : Pool τ CondVar (Call T)}
    (hd : deliver signals us (s.queue.pool.assign t .idle) = some P) (ht : todo t = rest)
    (hother : ∀ u, u ≠ t → todo u = s.todo u) :
    (⟨⟨d, P⟩, todo⟩ : ClientState τ T).unfinished = Function.update s.unfinished t rest := by
  funext u
  have hcur := currentCall_deliver hd u
  by_cases hu : u = t
  · subst hu
    rw [Pool.assign_phase_self] at hcur
    have hidle : currentCall (P.phase u) = [] := hcur
    simp [ClientState.unfinished, hidle, ht]
  · rw [Pool.assign_phase_of_ne _ _ hu] at hcur
    simp [ClientState.unfinished, hcur, hother u hu, hu]

/-- What one client step does to the unfinished calls: nothing, or it ends the first call of
one thread. -/
lemma ClientStep.unfinished_cases {s s' : ClientState τ T} {ev : Event τ (Call T)}
    {o : Outcome CondVar (Call T) (Result T)} (h : ClientStep s ev o s') :
    (s'.unfinished = s.unfinished ∧ s'.queue.data = s.queue.data ∧ ∀ a r, o ≠ .returns a r) ∨
    ∃ t a rest r signals, s.unfinished t = a :: rest ∧
      s'.unfinished = Function.update s.unfinished t rest ∧ o = .returns a r ∧
      s.queue.data.call a = .exit s'.queue.data signals r := by
  cases h with
  | @enter t a rest us o q htodo hstep =>
    have hother : ∀ u, u ≠ t → Function.update s.todo t rest u = s.todo u := fun u hu => by
      simp [hu]
    cases hstep with
    | sleep hr hb =>
      cases hr with
      | enter hp =>
        refine .inl ⟨unfinished_assign ?_ hother, rfl, fun _ _ h => by cases h⟩
        simp [ClientState.unfinished, hp, currentCall, htodo]
    | exit hr hb hd =>
      cases hr with
      | enter hp =>
        refine .inr ⟨t, a, rest, _, _, ?_, unfinished_exit hd (by simp) hother, rfl, hb⟩
        simp [ClientState.unfinished, hp, currentCall, htodo]
  | @resume t us o q hstep =>
    cases hstep with
    | sleep hr hb =>
      cases hr with
      | resume hp =>
        refine .inl ⟨unfinished_assign ?_ fun _ _ => rfl, rfl, fun _ _ h => by cases h⟩
        simp [ClientState.unfinished, hp, currentCall]
    | exit hr hb hd =>
      cases hr with
      | resume hp =>
        refine .inr ⟨t, _, s.todo t, _, _, ?_, unfinished_exit hd rfl fun _ _ => rfl, rfl, hb⟩
        simp [ClientState.unfinished, hp, currentCall]
  | @spurious t o q hstep =>
    cases hstep with
    | sleep hr => cases hr
    | exit hr => cases hr
    | wake hp =>
      refine .inl ⟨unfinished_assign ?_ fun _ _ => rfl, rfl, fun _ _ h => by cases h⟩
      simp [ClientState.unfinished, hp, currentCall]

lemma ClientStep.step {s s' : ClientState τ T} {ev : Event τ (Call T)}
    {o : Outcome CondVar (Call T) (Result T)} (h : ClientStep s ev o s') :
    Step BlockingQueue.call s.queue ev o s'.queue := by
  cases h with
  | enter _ h => exact h
  | resume h => exact h
  | spurious h => exact h

lemma ClientRun.queueRun {size : ℕ} {roles : τ → Role T} {tr : List (QueueTransition τ T)}
    {s : ClientState τ T} (h : ClientRun size roles tr s) : QueueRun size tr s.queue := by
  induction h with
  | nil => exact .nil
  | snoc _ hstep ih => exact .snoc ih hstep.step

end Unfinished

/-! ### Counting puts and takes -/

section Counting

/-- On an open queue a `put` that leaves has stored its element. -/
lemma put_exit_open {q d : BlockingQueue T} {e : T} {signals : List (Signal CondVar)}
    {r : Result T} (hopen : q.flushing = false) (h : q.call (.put e) = .exit d signals r) :
    d.flushing = false ∧ r = .stored true := by
  cases exit_cases h with
  | accepted => exact ⟨hopen, rfl⟩
  | handed ha => cases ha
  | refused _ hguard => simp [hopen, Call.target] at hguard

/-- On an open queue a `take` that leaves has an element. -/
lemma take_exit_open {q d : BlockingQueue T} {out : T} {signals : List (Signal CondVar)}
    {r : Result T} (hopen : q.flushing = false) (h : q.call (.take out) = .exit d signals r) :
    d.flushing = false ∧ ∃ e, r = .fetched true e := by
  cases exit_cases h with
  | accepted ha => cases ha
  | handed => exact ⟨hopen, _, rfl⟩
  | refused _ hguard => simp [hopen, Call.target] at hguard

/-- What the history of an open queue gains by a call that leaves: a `put` has stored one
element, a `take` has handed one out. -/
lemma exit_open_counts {q d : BlockingQueue T} {a : Call T} {r : Result T}
    {signals : List (Signal CondVar)} {x : QueueTransition τ T} (hopen : q.flushing = false)
    (hkind : a.isPut = true ∨ a.isTake = true) (h : q.call a = .exit d signals r)
    (hx : x.outcome = .returns a r) : d.flushing = false ∧ r.ok = true ∧
      (accepted? x).toList.length = (if a.isPut then 1 else 0) ∧
      (handedOut? x).toList.length = (if a.isTake then 1 else 0) := by
  cases a with
  | put e =>
    obtain ⟨hopen', rfl⟩ := put_exit_open hopen h
    refine ⟨hopen', rfl, ?_, ?_⟩ <;> simp [accepted?, handedOut?, hx, Call.isPut, Call.isTake]
  | take out =>
    obtain ⟨hopen', e, rfl⟩ := take_exit_open hopen h
    refine ⟨hopen', rfl, ?_, ?_⟩ <;> simp [accepted?, handedOut?, hx, Call.isPut, Call.isTake]
  | _ => simp [Call.isPut, Call.isTake] at hkind

lemma not_returns {x : QueueTransition τ T} (h : ∀ a r, x.outcome ≠ .returns a r) :
    accepted? x = none ∧ handedOut? x = none := by
  unfold accepted? handedOut?
  cases ho : x.outcome with
  | returns a r => exact absurd ho (h a r)
  | _ => exact ⟨rfl, rfl⟩

lemma accepted_concat (tr : List (QueueTransition τ T)) (x : QueueTransition τ T) :
    (accepted (tr ++ [x])).length = (accepted tr).length + (accepted? x).toList.length := by
  unfold accepted
  cases h : accepted? x <;> simp [h]

lemma handedOut_concat (tr : List (QueueTransition τ T)) (x : QueueTransition τ T) :
    (handedOut (tr ++ [x])).length = (handedOut tr).length + (handedOut? x).toList.length := by
  unfold handedOut
  cases h : handedOut? x <;> simp [h]

variable [Fintype τ] [DecidableEq τ]

/-- A sum over the threads when one of them changes. -/
lemma sum_update_add {X : Type} (f : τ → X) (g : X → ℕ) (t : τ) (x : X) :
    ∑ u, g (Function.update f t x u) + g (f t) = ∑ u, g (f u) + g x := by
  have hnew := Finset.add_sum_erase Finset.univ (fun u => g (Function.update f t x u))
    (Finset.mem_univ t)
  have hold := Finset.add_sum_erase Finset.univ (fun u => g (f u)) (Finset.mem_univ t)
  have hrest : ∑ u ∈ Finset.univ.erase t, g (Function.update f t x u) =
      ∑ u ∈ Finset.univ.erase t, g (f u) := by
    apply Finset.sum_congr rfl
    intro u hu
    rw [Function.update_of_ne (Finset.ne_of_mem_erase hu)]
  simp only [Function.update_self] at hnew
  omega

/-- What the clients have done and have still to do, in a run without flushes. -/
structure ClientInvariant (roles : τ → Role T) (tr : List (QueueTransition τ T))
    (s : ClientState τ T) : Prop where
  opened : s.queue.data.flushing = false
  allowed : ∀ t, ∀ a ∈ s.unfinished t, (roles t).Allows a
  puts : (accepted tr).length + ∑ t, (s.unfinished t).countP Call.isPut = ∑ t, (roles t).puts
  takes : (handedOut tr).length + ∑ t, (s.unfinished t).countP Call.isTake =
    ∑ t, (roles t).takes
  returned : ∀ x ∈ tr, ∀ a r, x.outcome = .returns a r →
    (a.isPut = true ∨ a.isTake = true) ∧ r.ok = true

omit [Fintype τ] [DecidableEq τ] in
lemma Role.calls_allowed (r : Role T) : ∀ a ∈ r.calls, r.Allows a := by
  intro a ha
  cases r with
  | producer es =>
    obtain ⟨e, _, rfl⟩ := List.mem_map.mp ha
    rfl
  | consumer outs =>
    obtain ⟨out, _, rfl⟩ := List.mem_map.mp ha
    rfl

omit [Fintype τ] [DecidableEq τ] in
lemma Role.countP_calls (r : Role T) :
    r.calls.countP Call.isPut = r.puts ∧ r.calls.countP Call.isTake = r.takes := by
  cases r with
  | producer es =>
    refine ⟨List.countP_map.trans (List.countP_eq_length.mpr fun _ _ => rfl), ?_⟩
    exact List.countP_map.trans (List.countP_eq_zero.mpr fun _ _ h => by cases h)
  | consumer outs =>
    refine ⟨List.countP_map.trans (List.countP_eq_zero.mpr fun _ _ h => by cases h), ?_⟩
    exact List.countP_map.trans (List.countP_eq_length.mpr fun _ _ => rfl)

omit [DecidableEq τ] in
lemma ClientInvariant.init (size : ℕ) (roles : τ → Role T) :
    ClientInvariant roles [] ⟨initial τ T size, fun t => (roles t).calls⟩ where
  opened := rfl
  allowed := fun t a ha => (roles t).calls_allowed a ha
  puts := by
    simp [accepted, ClientState.unfinished, initial, currentCall, Role.countP_calls]
  takes := by
    simp [handedOut, ClientState.unfinished, initial, currentCall, Role.countP_calls]
  returned := by simp

omit [DecidableEq τ] in
/-- A client step that ends no call. -/
lemma ClientInvariant.stutter {roles : τ → Role T} {tr : List (QueueTransition τ T)}
    {s s' : ClientState τ T} {x : QueueTransition τ T} (hi : ClientInvariant roles tr s)
    (hun : s'.unfinished = s.unfinished) (hdata : s'.queue.data = s.queue.data)
    (hx : ∀ a r, x.outcome ≠ .returns a r) : ClientInvariant roles (tr ++ [x]) s' where
  opened := by rw [hdata, hi.opened]
  allowed := by rw [hun]; exact hi.allowed
  puts := by
    rw [hun, accepted_concat, (not_returns hx).1]
    exact hi.puts
  takes := by
    rw [hun, handedOut_concat, (not_returns hx).2]
    exact hi.takes
  returned := by
    intro y hy a r ho
    rcases List.mem_append.mp hy with hy | hy
    · exact hi.returned y hy a r ho
    · obtain rfl := List.mem_singleton.mp hy
      exact absurd ho (hx a r)

/-- A client step that ends the first unfinished call of a thread. -/
lemma ClientInvariant.finish {roles : τ → Role T} {tr : List (QueueTransition τ T)}
    {s s' : ClientState τ T} {x : QueueTransition τ T} {t : τ} {a : Call T}
    {rest : List (Call T)} {r : Result T} {signals : List (Signal CondVar)}
    (hi : ClientInvariant roles tr s) (ht : s.unfinished t = a :: rest)
    (hun : s'.unfinished = Function.update s.unfinished t rest)
    (hx : x.outcome = .returns a r)
    (hcall : s.queue.data.call a = .exit s'.queue.data signals r) :
    ClientInvariant roles (tr ++ [x]) s' := by
  have hkind : a.isPut = true ∨ a.isTake = true := by
    have hrole := hi.allowed t a (by simp [ht])
    cases hr : roles t with
    | producer es => rw [hr] at hrole; exact .inl hrole
    | consumer outs => rw [hr] at hrole; exact .inr hrole
  obtain ⟨hopen, hok, hacc, hhand⟩ := exit_open_counts hi.opened hkind hcall hx
  refine ⟨hopen, ?_, ?_, ?_, ?_⟩
  · intro u b hb
    rw [hun] at hb
    by_cases hu : u = t
    · subst hu
      rw [Function.update_self] at hb
      exact hi.allowed u b (by simp [ht, hb])
    · rw [Function.update_of_ne hu] at hb
      exact hi.allowed u b hb
  · have hsum := sum_update_add s.unfinished (fun l => l.countP Call.isPut) t rest
    have hold := hi.puts
    simp only [ht, List.countP_cons] at hsum
    rw [accepted_concat, hacc, hun]
    omega
  · have hsum := sum_update_add s.unfinished (fun l => l.countP Call.isTake) t rest
    have hold := hi.takes
    simp only [ht, List.countP_cons] at hsum
    rw [handedOut_concat, hhand, hun]
    omega
  · intro y hy b r' ho
    rcases List.mem_append.mp hy with hy | hy
    · exact hi.returned y hy b r' ho
    · obtain rfl := List.mem_singleton.mp hy
      rw [hx] at ho
      cases ho
      exact ⟨hkind, hok⟩

theorem ClientRun.invariant {size : ℕ} {roles : τ → Role T} {tr : List (QueueTransition τ T)}
    {s : ClientState τ T} (h : ClientRun size roles tr s) : ClientInvariant roles tr s := by
  induction h with
  | nil => exact .init size roles
  | snoc _ hstep ih =>
    rcases hstep.unfinished_cases with ⟨hun, hdata, ho⟩ |
      ⟨t, a, rest, r, signals, ht, hun, ho, hcall⟩
    · exact ih.stutter hun hdata ho
    · exact ih.finish ht hun ho hcall

end Counting

/-! ### No deadlock -/

section Progress

variable [Fintype τ] [DecidableEq τ] {size : ℕ} {roles : τ → Role T}
  {tr : List (QueueTransition τ T)} {s : ClientState τ T}

/-- A call that waits on `c`, if it waits at all. -/
def Call.waitsOn : CondVar → Call T → Bool
  | .notFull => Call.isPut
  | .notEmpty => Call.isTake

/-- What the calls that wait on `c` have moved. -/
def moved : CondVar → List (QueueTransition τ T) → List T
  | .notFull => accepted
  | .notEmpty => handedOut

/-- How many calls that wait on `c` a role has. -/
def Role.due : CondVar → Role T → ℕ
  | .notFull => Role.puts
  | .notEmpty => Role.takes

lemma Call.waitsOn_of_target {c : CondVar} {a : Call T} (h : a.target = some c) :
    a.waitsOn c = true := by
  cases a <;> cases h <;> rfl

omit [DecidableEq τ] in
/-- The calls made and those still to make. -/
lemma ClientInvariant.moved_add (hi : ClientInvariant roles tr s) (c : CondVar) :
    (moved c tr).length + ∑ t, (s.unfinished t).countP (Call.waitsOn c) =
      ∑ t, (roles t).due c := by
  cases c with
  | notFull => exact hi.puts
  | notEmpty => exact hi.takes

omit [DecidableEq τ] in
/-- A thread in a call of one kind has no call of the other kind left. -/
lemma ClientInvariant.other_kind (hi : ClientInvariant roles tr s) {t : τ} {a : Call T}
    {c d : CondVar} (ha : a ∈ s.unfinished t) (hc : a.waitsOn c = true) (hd : d ≠ c) :
    (s.unfinished t).countP (Call.waitsOn d) = 0 := by
  refine List.countP_eq_zero.mpr fun b hb => ?_
  have hrole := hi.allowed t a ha
  have hrole' := hi.allowed t b hb
  cases hr : roles t with
  | producer es =>
    rw [hr] at hrole hrole'
    cases a <;> cases b <;> cases c <;> cases d <;>
      simp_all [Role.Allows, Call.waitsOn, Call.isPut, Call.isTake]
  | consumer outs =>
    rw [hr] at hrole hrole'
    cases a <;> cases b <;> cases c <;> cases d <;>
      simp_all [Role.Allows, Call.waitsOn, Call.isPut, Call.isTake]

/-- Without flushes the whole run is one epoch. -/
lemma ClientInvariant.accepted_eq (hi : ClientInvariant roles tr s)
    (h : QueueRun size tr s.queue) : accepted tr = handedOut tr ++ s.queue.data.items := by
  have hepoch : epoch tr = tr := by
    apply Fifo.sinceLast_eq_self
    intro x hx
    unfold closes
    split
    · rename_i ho
      have hkind := (hi.returned x hx _ _ ho).1
      simp [Call.isPut, Call.isTake] at hkind
    · rfl
  have hlaw := accepted_epoch h
  rwa [hepoch] at hlaw

/-- No thread can take a step by itself: each is asleep or has finished. -/
def ClientState.Stuck (s : ClientState τ T) : Prop :=
  ∀ ev o s', ClientStep s ev o s' → ev.isSpurious = true

omit [Fintype τ] in
lemma ClientState.Stuck.phase (hs : s.Stuck) (t : τ) :
    (∃ c a, s.queue.pool.phase t = .asleep c a) ∨
      (s.queue.pool.phase t = .idle ∧ s.todo t = []) := by
  cases hp : s.queue.pool.phase t with
  | asleep c a => exact .inl ⟨c, a, rfl⟩
  | idle =>
    cases htodo : s.todo t with
    | nil => exact .inr ⟨rfl, rfl⟩
    | cons a rest =>
      obtain ⟨us, o, q, hq⟩ := exists_step_enter BlockingQueue.call s.queue a hp
      cases hs _ _ _ (.enter htodo hq)
  | woken c a =>
    obtain ⟨us, o, q, hq⟩ := exists_step_resume BlockingQueue.call s.queue hp
    cases hs _ _ _ (.resume hq)

omit [Fintype τ] [DecidableEq τ] in
lemma ClientState.mem_unfinished {t : τ} {c : CondVar} {a : Call T}
    (hp : s.queue.pool.phase t = .asleep c a) : a ∈ s.unfinished t := by
  simp [ClientState.unfinished, hp, currentCall]

/-- If nobody can move, only sleeping threads have calls left. -/
lemma ClientState.Stuck.countP_unfinished (hs : s.Stuck) {p : Call T → Bool}
    (hasleep : ∀ t c a, s.queue.pool.phase t = .asleep c a → (s.unfinished t).countP p = 0) :
    ∑ t, (s.unfinished t).countP p = 0 := by
  apply Finset.sum_eq_zero
  intro t _
  rcases hs.phase t with ⟨c, a, hp⟩ | ⟨hp, htodo⟩
  · exact hasleep t c a hp
  · simp [ClientState.unfinished, hp, htodo, currentCall]

/-- If nobody can move and nobody sleeps on `c`, every call that waits on it is done. -/
lemma ClientInvariant.all_done (hi : ClientInvariant roles tr s) (hs : s.Stuck)
    (htarget : s.queue.pool.Targeted Call.target) {c : CondVar}
    (hnone : ∀ t a, s.queue.pool.phase t ≠ .asleep c a) :
    (moved c tr).length = ∑ t, (roles t).due c := by
  have hzero := hs.countP_unfinished (p := Call.waitsOn c) fun t d a hp => by
    have ha : a.target = some d := htarget t d a (.inl hp)
    refine hi.other_kind (s.mem_unfinished hp) (Call.waitsOn_of_target ha) ?_
    rintro rfl
    exact hnone t a hp
  have hmoved := hi.moved_add c
  omega

omit [DecidableEq τ] in
/-- A sleeping thread has its call still to do. -/
lemma countP_unfinished_pos {p : Call T → Bool} {t : τ} {c : CondVar} {a : Call T}
    (hp : s.queue.pool.phase t = .asleep c a) (ha : p a = true) :
    0 < ∑ t, (s.unfinished t).countP p := by
  have hpos : 0 < (s.unfinished t).countP p :=
    List.countP_pos_iff.mpr ⟨a, s.mem_unfinished hp, ha⟩
  have hle := Finset.single_le_sum (f := fun t => (s.unfinished t).countP p)
    (fun _ _ => Nat.zero_le _) (Finset.mem_univ t)
  omega

omit [DecidableEq τ] in
lemma ClientInvariant.some_left (hi : ClientInvariant roles tr s)
    (htarget : s.queue.pool.Targeted Call.target) {t : τ} {c : CondVar} {a : Call T}
    (hp : s.queue.pool.phase t = .asleep c a) :
    (moved c tr).length < ∑ t, (roles t).due c := by
  have ha := Call.waitsOn_of_target (htarget t c a (.inl hp))
  have hpos := countP_unfinished_pos (p := Call.waitsOn c) hp ha
  have hmoved := hi.moved_add c
  omega

/-- A stuck state of enough producers and consumers is a finished one. -/
lemma stuck_finished (hsize : 1 ≤ size)
    (hle : ∑ t, (roles t).takes ≤ ∑ t, (roles t).puts)
    (hroom : ∑ t, (roles t).puts ≤ ∑ t, (roles t).takes + size)
    (h : ClientRun size roles tr s) (hs : s.Stuck) : s.Finished := by
  have hi := h.invariant
  have hrun := h.queueRun
  obtain ⟨hsound, htarget, _⟩ := reachable_covered hrun
  have hlength := congrArg List.length (hi.accepted_eq hrun)
  rw [List.length_append] at hlength
  have hwoken : ∀ t c a, s.queue.pool.phase t ≠ .woken c a := by
    intro t c a hp
    rcases hs.phase t with ⟨d, b, hp'⟩ | ⟨hp', _⟩ <;> simp [hp] at hp'
  have htakers : ∀ t a, s.queue.pool.phase t = .asleep .notEmpty a →
      s.queue.data.items.length = 0 := by
    intro t a hp
    have hbound := asleep_bound hrun hp
    rw [Pool.wokenFrom_eq_empty hwoken, Finset.card_empty,
      BlockingQueue.available_notEmpty] at hbound
    omega
  have hputters : ∀ t a, s.queue.pool.phase t = .asleep .notFull a →
      s.queue.data.items.length = size := by
    intro t a hp
    have hbound := asleep_bound hrun hp
    rw [Pool.wokenFrom_eq_empty hwoken, Finset.card_empty, BlockingQueue.available_notFull,
      hsound.size_eq] at hbound
    have hb := hsound.bounded
    omega
  intro t
  rcases hs.phase t with ⟨c, a, hp⟩ | hdone
  · exfalso
    cases c with
    | notEmpty =>
      have hzero := htakers t a hp
      have hleft : (handedOut tr).length < ∑ t, (roles t).takes := hi.some_left htarget hp
      have hdone : (accepted tr).length = ∑ t, (roles t).puts :=
        hi.all_done hs htarget (c := .notFull) fun u b hu => by
          have hfull := hputters u b hu
          omega
      omega
    | notFull =>
      have hfull := hputters t a hp
      have hleft : (accepted tr).length < ∑ t, (roles t).puts := hi.some_left htarget hp
      have hdone : (handedOut tr).length = ∑ t, (roles t).takes :=
        hi.all_done hs htarget (c := .notEmpty) fun u b hu => by
          have hzero := htakers u b hu
          omega
      omega
  · exact hdone

/-- Producers and consumers never deadlock. With room for the surplus of elements, every
reachable state has a step that is no spurious wake-up, until all calls are done. Then every
call has returned true and the queue holds the elements accepted last. -/
theorem producers_consumers_progress (hsize : 1 ≤ size)
    (hle : ∑ t, (roles t).takes ≤ ∑ t, (roles t).puts)
    (hroom : ∑ t, (roles t).puts ≤ ∑ t, (roles t).takes + size)
    (h : ClientRun size roles tr s) :
    (s.Finished ∨ ∃ ev o s', ClientStep s ev o s' ∧ ev.isSpurious = false) ∧
    (s.Finished →
      (∀ x ∈ tr, ∀ a r, x.outcome = .returns a r → r.ok = true) ∧
      (accepted tr).length = ∑ t, (roles t).puts ∧
      (handedOut tr).length = ∑ t, (roles t).takes ∧
      s.queue.data.items = (accepted tr).drop (∑ t, (roles t).takes)) := by
  have hi := h.invariant
  refine ⟨?_, ?_⟩
  · by_cases hs : s.Stuck
    · exact .inl (stuck_finished hsize hle hroom h hs)
    · right
      unfold ClientState.Stuck at hs
      push Not at hs
      obtain ⟨ev, o, s', hstep, hev⟩ := hs
      exact ⟨ev, o, s', hstep, by simpa using hev⟩
  · intro hf
    have hnone : ∀ t, s.unfinished t = [] := by
      intro t
      simp [ClientState.unfinished, hf t, currentCall]
    have hputs := hi.puts
    have htakes := hi.takes
    simp only [hnone, List.countP_nil, Finset.sum_const_zero, add_zero] at hputs htakes
    refine ⟨fun x hx a r ho => (hi.returned x hx a r ho).2, hputs, htakes, ?_⟩
    rw [hi.accepted_eq h.queueRun, ← htakes, List.drop_left]

/-- A producer of one element and a consumer that gets to sleep first. -/
theorem producers_consumers_progress_pair :
    ∃ (tr : List (QueueTransition Bool ℕ)) (s : ClientState Bool ℕ),
      ClientRun 1 (fun t => if t then .producer [7] else .consumer [0]) tr s ∧
      handedOut tr = [7] ∧ s.queue.data.items = (accepted tr).drop 1 := by
  have hrun : ClientRun 1 (fun t : Bool => if t then .producer [7] else .consumer [0]) _ _ :=
    .snoc (.snoc (.snoc .nil (@ClientStep.enter _ _ _ _ false _ _ [] _ _ rfl (step_cases rfl)))
      (@ClientStep.enter _ _ _ _ true _ _ [false] _ _ rfl (step_cases rfl)))
      (@ClientStep.resume _ _ _ _ false [] _ _ (step_cases rfl))
  refine ⟨_, _, hrun, rfl, ?_⟩
  refine ((producers_consumers_progress (by decide) (by decide) (by decide) hrun).2 ?_).2.2.2
  intro t
  cases t <;> exact ⟨rfl, rfl⟩

end Progress

end StupidAR
