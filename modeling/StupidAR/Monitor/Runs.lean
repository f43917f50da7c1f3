import StupidAR.Monitor.Pool

/-!
# Monitors and their runs

A monitor guards data of type `σ` with one lock. A call `a` is one function `body a` of the
guarded data, evaluated with the lock held: it either finds its predicate false and waits on
a condition variable, to be evaluated again when the thread is woken and gets the lock back,
or it leaves with new data, signals and a result. Signalling does not hand the lock over: a
woken thread competes with every other thread, and threads may wake without a signal.
-/

namespace Monitor

inductive Signal (κ : Type) where
  | one (c : κ)
  | all (c : κ)
  deriving DecidableEq

/-- The outcome of one lock-held section. -/
inductive Section (σ κ ρ : Type) where
  | wait (c : κ)
  | exit (d : σ) (signals : List (Signal κ)) (r : ρ)

/-- A wait on `c` with a predicate: the rest of the section runs once the predicate holds. -/
def waitUntil {σ κ ρ : Type} (c : κ) (pred : Bool) (rest : Section σ κ ρ) : Section σ κ ρ :=
  if pred then rest else .wait c

structure State (σ τ κ α : Type) where
  data : σ
  pool : Pool τ κ α

/-- One atomic step: thread `t` enters call `a`, or gets the lock back after a wake-up, or
wakes spuriously. The list names the threads that the `notify_one`s of the section wake. -/
inductive Event (τ α : Type) where
  | enter (t : τ) (a : α) (us : List τ)
  | resume (t : τ) (us : List τ)
  | spurious (t : τ)

def Event.thread {τ α : Type} : Event τ α → τ
  | enter t _ _ => t
  | resume t _ => t
  | spurious t => t

def Event.isSpurious {τ α : Type} : Event τ α → Bool
  | spurious _ => true
  | _ => false

inductive Outcome (κ α ρ : Type) where
  | waits (a : α) (c : κ)
  | returns (a : α) (r : ρ)
  | wakes

variable {σ τ κ α ρ : Type} [DecidableEq τ] [DecidableEq κ]

/-- Performs the signals in order. A `notify_one` wakes the next named thread, which must be
asleep on its condition variable, and nobody exactly when no thread is asleep there. -/
def deliver : List (Signal κ) → List τ → Pool τ κ α → Option (Pool τ κ α)
  | [], [], P => some P
  | [], _ :: _, _ => none
  | .all c :: signals, us, P => deliver signals us (P.wakeAll c)
  | .one c :: signals, us, P =>
    if P.sleepers c = ∅ then deliver signals us P
    else
      match us with
      | [] => none
      | u :: us => if u ∈ P.sleepers c then deliver signals us (P.wake u) else none

section Steps

variable (body : α → σ → Section σ κ ρ)

/-- Thread `t` evaluates call `a` with the lock held. -/
def evaluate (s : State σ τ κ α) (t : τ) (a : α) (us : List τ) :
    Option (State σ τ κ α × Outcome κ α ρ) :=
  match body a s.data with
  | .wait c => if us = [] then some (⟨s.data, s.pool.assign t (.asleep c a)⟩, .waits a c) else none
  | .exit d signals r =>
    (deliver signals us (s.pool.assign t .idle)).map fun P => (⟨d, P⟩, .returns a r)

def step (s : State σ τ κ α) : Event τ α → Option (State σ τ κ α × Outcome κ α ρ)
  | .enter t a us =>
    match s.pool.phase t with
    | .idle => evaluate body s t a us
    | _ => none
  | .resume t us =>
    match s.pool.phase t with
    | .woken _ a => evaluate body s t a us
    | _ => none
  | .spurious t =>
    match s.pool.phase t with
    | .asleep _ _ => some (⟨s.data, s.pool.wake t⟩, .wakes)
    | _ => none

/-- Event `ev` lets thread `t` evaluate call `a` in state `s`. -/
inductive Ready (s : State σ τ κ α) : Event τ α → τ → α → List τ → Prop
  | enter {t : τ} {a : α} {us : List τ} (h : s.pool.phase t = .idle) :
    Ready s (.enter t a us) t a us
  | resume {t : τ} {c : κ} {a : α} {us : List τ} (h : s.pool.phase t = .woken c a) :
    Ready s (.resume t us) t a us

/-- Everything a step can do. -/
inductive Step (s : State σ τ κ α) : Event τ α → Outcome κ α ρ → State σ τ κ α → Prop
  | sleep {ev : Event τ α} {t : τ} {a : α} {c : κ} (hr : Ready s ev t a [])
    (hb : body a s.data = .wait c) :
    Step s ev (.waits a c) ⟨s.data, s.pool.assign t (.asleep c a)⟩
  | exit {ev : Event τ α} {t : τ} {a : α} {us : List τ} {d : σ} {signals : List (Signal κ)}
    {r : ρ} {P : Pool τ κ α} (hr : Ready s ev t a us) (hb : body a s.data = .exit d signals r)
    (hd : deliver signals us (s.pool.assign t .idle) = some P) :
    Step s ev (.returns a r) ⟨d, P⟩
  | wake {t : τ} {c : κ} {a : α} (h : s.pool.phase t = .asleep c a) :
    Step s (.spurious t) .wakes ⟨s.data, s.pool.assign t (.woken c a)⟩

variable {body}

omit [DecidableEq τ] [DecidableEq κ] in
lemma Ready.thread_eq {s : State σ τ κ α} {ev : Event τ α} {t : τ} {a : α} {us : List τ}
    (h : Ready s ev t a us) : ev.thread = t := by
  cases h <;> rfl

omit [DecidableEq τ] [DecidableEq κ] in
lemma Ready.unique {s : State σ τ κ α} {ev : Event τ α} {t t' : τ} {a a' : α} {us us' : List τ}
    (h : Ready s ev t a us) (h' : Ready s ev t' a' us') : t = t' ∧ a = a' ∧ us = us' := by
  cases h with
  | enter => cases h'; exact ⟨rfl, rfl, rfl⟩
  | resume hp =>
    cases h' with
    | resume hp' =>
      rw [hp] at hp'
      cases hp'
      exact ⟨rfl, rfl, rfl⟩

omit [DecidableEq τ] in
lemma Ready.not_asleep {s : State σ τ κ α} {ev : Event τ α} {t : τ} {a : α}
    {us : List τ} (h : Ready s ev t a us) (c : κ) : t ∉ s.pool.sleepers c := by
  cases h <;> simp_all [Pool.mem_sleepers]

lemma evaluate_step {s s' : State σ τ κ α} {ev : Event τ α} {t : τ} {a : α} {us : List τ}
    {o : Outcome κ α ρ} (hr : Ready s ev t a us) (h : evaluate body s t a us = some (s', o)) :
    Step body s ev o s' := by
  unfold evaluate at h
  cases hb : body a s.data with
  | wait c =>
    rw [hb] at h
    by_cases hus : us = []
    · simp only [hus, if_true, Option.some.injEq, Prod.mk.injEq] at h
      obtain ⟨rfl, rfl⟩ := h
      exact .sleep (hus ▸ hr) hb
    · simp [hus] at h
  | exit d signals r =>
    rw [hb] at h
    simp only [Option.map_eq_some_iff, Prod.mk.injEq] at h
    obtain ⟨P, hP, rfl, rfl⟩ := h
    exact .exit hr hb hP

theorem step_cases {s s' : State σ τ κ α} {ev : Event τ α} {o : Outcome κ α ρ}
    (h : step body s ev = some (s', o)) : Step body s ev o s' := by
  cases ev with
  | enter t a us =>
    cases hp : s.pool.phase t <;> simp only [step, hp, reduceCtorEq] at h
    exact evaluate_step (.enter hp) h
  | resume t us =>
    cases hp : s.pool.phase t <;> simp only [step, hp, reduceCtorEq] at h
    exact evaluate_step (.resume hp) h
  | spurious t =>
    cases hp : s.pool.phase t <;> simp only [step, hp, reduceCtorEq, Option.some.injEq,
      Prod.mk.injEq] at h
    obtain ⟨rfl, rfl⟩ := h
    rw [Pool.wake_of_asleep _ hp]
    exact .wake hp

lemma Step.enter_idle {s s' : State σ τ κ α} {t : τ} {a : α} {us : List τ} {o : Outcome κ α ρ}
    (h : Step body s (.enter t a us) o s') : s.pool.phase t = .idle := by
  cases h with
  | sleep hr _ => cases hr with | enter hp => exact hp
  | exit hr _ _ => cases hr with | enter hp => exact hp

/-- A section that does not wait leaves only the choice of the woken threads open. -/
lemma Step.of_exit {s s' : State σ τ κ α} {ev : Event τ α} {t : τ} {a : α} {us : List τ} {d : σ}
    {signals : List (Signal κ)} {r : ρ} {o : Outcome κ α ρ} (hr : Ready s ev t a us)
    (hb : body a s.data = .exit d signals r) (h : Step body s ev o s') :
    o = .returns a r ∧ ∃ P, deliver signals us (s.pool.assign t .idle) = some P ∧ s' = ⟨d, P⟩ := by
  cases h with
  | sleep hr' hb' =>
    obtain ⟨rfl, rfl, -⟩ := hr.unique hr'
    rw [hb] at hb'
    cases hb'
  | exit hr' hb' hd =>
    obtain ⟨rfl, rfl, rfl⟩ := hr.unique hr'
    rw [hb] at hb'
    cases hb'
    exact ⟨rfl, _, hd, rfl⟩
  | wake => cases hr

end Steps

/-! ### Signals -/

section Deliver

/-- A signal wakes sleepers and does nothing else to a thread. -/
lemma deliver_phase {signals : List (Signal κ)} {us : List τ} {P Q : Pool τ κ α}
    (h : deliver signals us P = some Q) (t : τ) :
    Q.phase t = P.phase t ∨ ∃ c a, P.phase t = .asleep c a ∧ Q.phase t = .woken c a := by
  induction signals, us, P using deliver.induct with
  | case1 P =>
    simp only [deliver, Option.some.injEq] at h
    exact .inl (by rw [h])
  | case2 => simp [deliver] at h
  | case3 c signals us P ih =>
    rcases ih h with heq | ⟨d, a, hasleep, hwoken⟩
    · cases hp : P.phase t with
      | asleep d a =>
        by_cases hd : d = c
        · exact .inr ⟨d, a, rfl, by simp [heq, hp, Phase.notified, hd]⟩
        · exact .inl (by simp [heq, hp, Phase.notified, hd])
      | _ => exact .inl (by simp [heq, hp, Phase.notified])
    · cases hp : P.phase t with
      | asleep e b =>
        by_cases he : e = c <;> simp [hp, Phase.notified, he] at hasleep
        obtain ⟨rfl, rfl⟩ := hasleep
        exact .inr ⟨e, b, rfl, hwoken⟩
      | _ => simp [hp, Phase.notified] at hasleep
  | case4 c signals us P hc ih => exact ih (by simpa [deliver, hc] using h)
  | case5 c signals P hc => simp [deliver, hc] at h
  | case6 c signals P hc u us hu ih =>
    obtain ⟨b, hb⟩ := (Pool.mem_sleepers _ _ _).mp hu
    have hQ := ih (by simpa [deliver, hc, hu] using h)
    by_cases htu : t = u
    · subst htu
      rw [Pool.wake_of_asleep _ hb, Pool.assign_phase_self] at hQ
      exact .inr ⟨c, b, hb, by simpa using hQ⟩
    · rwa [Pool.wake_of_asleep _ hb, Pool.assign_phase_of_ne _ _ htu] at hQ
  | case7 c signals P hc u us hu => simp [deliver, hc, hu] at h

lemma deliver_sleepers_subset {signals : List (Signal κ)} {us : List τ} {P Q : Pool τ κ α}
    (h : deliver signals us P = some Q) (c : κ) : Q.sleepers c ⊆ P.sleepers c := by
  intro t ht
  obtain ⟨a, ha⟩ := (Pool.mem_sleepers _ _ _).mp ht
  rcases deliver_phase h t with heq | ⟨d, b, _, hwoken⟩
  · exact (Pool.mem_sleepers _ _ _).mpr ⟨a, heq ▸ ha⟩
  · rw [hwoken] at ha
    cases ha

/-- After a `notify_all` on `c` nobody is asleep there. -/
lemma deliver_all {signals : List (Signal κ)} {us : List τ} {P Q : Pool τ κ α} {c : κ}
    (h : deliver signals us P = some Q) (hc : .all c ∈ signals) : Q.sleepers c = ∅ := by
  induction signals, us, P using deliver.induct with
  | case1 => simp at hc
  | case2 => simp at hc
  | case3 d signals us P ih =>
    rcases List.mem_cons.mp hc with heq | hmem
    · cases heq
      have hrest : deliver signals us (P.wakeAll c) = some Q := h
      exact Finset.subset_empty.mp (Pool.sleepers_wakeAll P c ▸ deliver_sleepers_subset hrest c)
    · exact ih h hmem
  | case4 d signals us P hd ih => exact ih (by simpa [deliver, hd] using h) (by simpa using hc)
  | case5 d signals P hd => simp [deliver, hd] at h
  | case6 d signals P hd u us hu ih =>
    exact ih (by simpa [deliver, hd, hu] using h) (by simpa using hc)
  | case7 d signals P hd u us hu => simp [deliver, hd, hu] at h

/-- If someone is still asleep on `c` after the signals, every `notify_one` on `c` found a
sleeper: the woken threads grew by the number of these signals at least. -/
lemma deliver_card_wokenFrom {signals : List (Signal κ)} {us : List τ} {P Q : Pool τ κ α} {c : κ}
    (h : deliver signals us P = some Q) (hc : (Q.sleepers c).Nonempty) :
    (P.wokenFrom c).card + signals.count (.one c) ≤ (Q.wokenFrom c).card := by
  induction signals, us, P using deliver.induct with
  | case1 P =>
    simp only [deliver, Option.some.injEq] at h
    simp [h]
  | case2 => simp [deliver] at h
  | case3 d signals us P ih =>
    have hmono := Finset.card_le_card (Pool.wokenFrom_wakeAll_subset P d c)
    have hrest := ih h
    have hcount : (Signal.all d :: signals).count (.one c) = signals.count (.one c) := by simp
    omega
  | case4 d signals us P hd ih =>
    have hrest := deliver_sleepers_subset h c
    have hdc : d ≠ c := by
      rintro rfl
      rw [hd, Finset.subset_empty] at hrest
      simp [hrest] at hc
    have hi := ih (by simpa [deliver, hd] using h)
    have hcount : (Signal.one d :: signals).count (.one c) = signals.count (.one c) := by
      simp [hdc]
    omega
  | case5 d signals P hd => simp [deliver, hd] at h
  | case6 d signals P hd u us hu ih =>
    have hi := ih (by simpa [deliver, hd, hu] using h)
    have hcard := Pool.card_wokenFrom_wake P hu c
    have hcount : (Signal.one d :: signals).count (.one c) =
        signals.count (.one c) + if d = c then 1 else 0 := by
      simp [List.count_cons]
    omega
  | case7 d signals P hd u us hu => simp [deliver, hd, hu] at h

/-- Some choice of woken threads always performs the signals. -/
lemma exists_deliver (signals : List (Signal κ)) (P : Pool τ κ α) :
    ∃ us Q, deliver signals us P = some Q := by
  induction signals generalizing P with
  | nil => exact ⟨[], P, rfl⟩
  | cons signal signals ih =>
    cases signal with
    | all c =>
      obtain ⟨us, Q, hQ⟩ := ih (P.wakeAll c)
      exact ⟨us, Q, hQ⟩
    | one c =>
      by_cases hc : P.sleepers c = ∅
      · obtain ⟨us, Q, hQ⟩ := ih P
        exact ⟨us, Q, by simpa [deliver, hc] using hQ⟩
      · obtain ⟨u, hu⟩ := Finset.nonempty_iff_ne_empty.mpr hc
        obtain ⟨us, Q, hQ⟩ := ih (P.wake u)
        exact ⟨u :: us, Q, by simpa [deliver, hc, hu] using hQ⟩

end Deliver

/-! ### Progress -/

section Progress

/-- A call that gets the lock always has a step: it sleeps, or it leaves and wakes someone. -/
lemma exists_step_enter (body : α → σ → Section σ κ ρ) (s : State σ τ κ α) {t : τ} (a : α)
    (ht : s.pool.phase t = .idle) : ∃ us o s', Step body s (.enter t a us) o s' := by
  cases hb : body a s.data with
  | wait c => exact ⟨[], _, _, .sleep (.enter ht) hb⟩
  | exit d signals r =>
    obtain ⟨us, P, hP⟩ := exists_deliver signals (s.pool.assign t .idle)
    exact ⟨us, _, _, .exit (.enter ht) hb hP⟩

lemma exists_step_resume (body : α → σ → Section σ κ ρ) (s : State σ τ κ α) {t : τ} {c : κ}
    {a : α} (ht : s.pool.phase t = .woken c a) : ∃ us o s', Step body s (.resume t us) o s' := by
  cases hb : body a s.data with
  | wait d => exact ⟨[], _, _, .sleep (.resume ht) hb⟩
  | exit d signals r =>
    obtain ⟨us, P, hP⟩ := exists_deliver signals (s.pool.assign t .idle)
    exact ⟨us, _, _, .exit (.resume ht) hb hP⟩

end Progress

/-! ### Runs -/

structure Transition (σ τ κ α ρ : Type) where
  pre : State σ τ κ α
  event : Event τ α
  outcome : Outcome κ α ρ
  post : State σ τ κ α

section Runs

variable (body : α → σ → Section σ κ ρ)

/-- The transitions of a run, in the order of their atomic steps. -/
inductive Run (s₀ : State σ τ κ α) : List (Transition σ τ κ α ρ) → State σ τ κ α → Prop
  | nil : Run s₀ [] s₀
  | snoc {tr : List (Transition σ τ κ α ρ)} {s s' : State σ τ κ α} {ev : Event τ α}
    {o : Outcome κ α ρ} (hrun : Run s₀ tr s) (hstep : Step body s ev o s') :
    Run s₀ (tr ++ [⟨s, ev, o, s'⟩]) s'

/-- Performs the given events, if each of them is possible in its turn. -/
def exec (s : State σ τ κ α) :
    List (Event τ α) → Option (List (Transition σ τ κ α ρ) × State σ τ κ α)
  | [] => some ([], s)
  | ev :: evs =>
    match step body s ev with
    | none => none
    | some (s', o) => (exec s' evs).map fun p => (⟨s, ev, o, s'⟩ :: p.1, p.2)

variable {body}

lemma Run.single {s s' : State σ τ κ α} {ev : Event τ α} {o : Outcome κ α ρ}
    (h : Step body s ev o s') : Run body s [⟨s, ev, o, s'⟩] s' :=
  .snoc .nil h

lemma Run.append {s s' s'' : State σ τ κ α} {tr tr' : List (Transition σ τ κ α ρ)}
    (h : Run body s tr s') (h' : Run body s' tr' s'') : Run body s (tr ++ tr') s'' := by
  induction h' with
  | nil => simpa using h
  | snoc _ hstep ih =>
    rw [← List.append_assoc]
    exact .snoc ih hstep

lemma exec_run (evs : List (Event τ α)) {s s' : State σ τ κ α}
    {tr : List (Transition σ τ κ α ρ)} (h : exec body s evs = some (tr, s')) :
    Run body s tr s' := by
  induction evs generalizing s tr with
  | nil =>
    simp only [exec, Option.some.injEq, Prod.mk.injEq] at h
    obtain ⟨rfl, rfl⟩ := h
    exact .nil
  | cons ev evs ih =>
    cases hs : step body s ev with
    | none => simp [exec, hs] at h
    | some p =>
      obtain ⟨m, o⟩ := p
      simp only [exec, hs, Option.map_eq_some_iff, Prod.mk.injEq, Prod.exists] at h
      obtain ⟨tail, _, htail, rfl, rfl⟩ := h
      exact (Run.single (step_cases hs)).append (ih htail)

lemma Run.nil_inv {s s' : State σ τ κ α} (h : Run body s [] s') : s' = s := by
  generalize hl : [] = l at h
  cases h with
  | nil => rfl
  | snoc => simp at hl

lemma Run.snoc_inv {s s' : State σ τ κ α} {tr : List (Transition σ τ κ α ρ)}
    {x : Transition σ τ κ α ρ} (h : Run body s (tr ++ [x]) s') :
    Run body s tr x.pre ∧ x.post = s' ∧ Step body x.pre x.event x.outcome s' := by
  generalize hl : tr ++ [x] = l at h
  cases h with
  | nil => simp at hl
  | snoc hrun hstep =>
    obtain ⟨rfl, hx⟩ := List.append_inj' hl rfl
    obtain rfl := List.singleton_inj.mp hx
    exact ⟨hrun, rfl, hstep⟩

/-- A run passes through a state between any two parts of its trace. -/
lemma Run.split {s s' : State σ τ κ α} (tr tr' : List (Transition σ τ κ α ρ))
    (h : Run body s (tr ++ tr') s') : ∃ m, Run body s tr m ∧ Run body m tr' s' := by
  induction tr' using List.reverseRecOn generalizing s' with
  | nil => exact ⟨s', by simpa using h, .nil⟩
  | append_singleton tr' x ih =>
    rw [← List.append_assoc] at h
    obtain ⟨hpre, rfl, hstep⟩ := h.snoc_inv
    obtain ⟨m, hm, hm'⟩ := ih hpre
    exact ⟨m, hm, .snoc hm' hstep⟩

lemma Run.middle {s s' : State σ τ κ α} (tr tr' : List (Transition σ τ κ α ρ))
    (x : Transition σ τ κ α ρ) (h : Run body s (tr ++ x :: tr') s') :
    Run body s tr x.pre ∧ Step body x.pre x.event x.outcome x.post ∧ Run body x.post tr' s' := by
  obtain ⟨m, hm, hrest⟩ := h.split
  obtain ⟨m', hx, htail⟩ := Run.split [x] tr' hrest
  have hsnoc : Run body m ([] ++ [x]) m' := hx
  obtain ⟨hnil, rfl, hstep⟩ := hsnoc.snoc_inv
  rw [hnil.nil_inv] at hstep ⊢
  exact ⟨hm, hstep, htail⟩

/-- What every step keeps holds along a run. -/
theorem Run.invariant {I : State σ τ κ α → Prop} {s s' : State σ τ κ α}
    {tr : List (Transition σ τ κ α ρ)} (h : Run body s tr s') (h0 : I s)
    (hI : ∀ s ev o s', I s → Step body s ev o s' → I s') : I s' := by
  induction h with
  | nil => exact h0
  | snoc _ hstep ih => exact hI _ _ _ _ ih hstep

/-- A step of another thread can only wake thread `t`. -/
lemma Step.phase_of_ne {s s' : State σ τ κ α} {ev : Event τ α} {o : Outcome κ α ρ} {t : τ}
    (h : Step body s ev o s') (ht : ev.thread ≠ t) :
    s'.pool.phase t = s.pool.phase t ∨
      ∃ c a, s.pool.phase t = .asleep c a ∧ s'.pool.phase t = .woken c a := by
  cases h with
  | sleep hr _ =>
    rw [hr.thread_eq] at ht
    exact .inl (Pool.assign_phase_of_ne _ _ ht.symm)
  | exit hr _ hd =>
    rw [hr.thread_eq] at ht
    have hphase := deliver_phase hd t
    rwa [Pool.assign_phase_of_ne _ _ ht.symm] at hphase
  | wake _ => exact .inl (Pool.assign_phase_of_ne _ _ (Ne.symm ht))

/-- A woken thread stays woken until it gets the lock. -/
lemma Run.woken_of_ne {s s' : State σ τ κ α} {tr : List (Transition σ τ κ α ρ)} {t : τ} {c : κ}
    {a : α} (h : Run body s tr s') (hs : s.pool.phase t = .woken c a)
    (ht : ∀ x ∈ tr, x.event.thread ≠ t) : s'.pool.phase t = .woken c a := by
  induction h with
  | nil => exact hs
  | snoc _ hstep ih =>
    have hpre := ih fun x hx => ht x (List.mem_append_left _ hx)
    have hne := ht _ (List.mem_append_right _ (List.mem_singleton_self _))
    rcases hstep.phase_of_ne hne with heq | ⟨d, b, hasleep, _⟩
    · rw [heq, hpre]
    · rw [hpre] at hasleep
      cases hasleep

/-- A property of the guarded data that every call keeps. -/
def Keeps (body : α → σ → Section σ κ ρ) (I : σ → Prop) : Prop :=
  ∀ a d d' signals r, I d → body a d = .exit d' signals r → I d'

lemma Step.data_invariant {I : σ → Prop} (hI : Keeps body I) {s s' : State σ τ κ α}
    {ev : Event τ α} {o : Outcome κ α ρ} (hs : I s.data) (h : Step body s ev o s') :
    I s'.data := by
  cases h with
  | sleep => exact hs
  | exit _ hb _ => exact hI _ _ _ _ _ hs hb
  | wake => exact hs

theorem Run.data_invariant {I : σ → Prop} (hI : Keeps body I) {s s' : State σ τ κ α}
    {tr : List (Transition σ τ κ α ρ)} (h : Run body s tr s') (hs : I s.data) : I s'.data :=
  h.invariant (I := fun s => I s.data) hs fun _ _ _ _ hi hstep => hstep.data_invariant hI hi

end Runs

end Monitor
