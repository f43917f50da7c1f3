import StupidAR.Monitor.WakeUps

/-!
# Calls that fail

A call that would take effect may fail instead: it leaves with the data as they were and
without a signal. If it was woken, it leaves the notification it was woken with unused, and
the threads that still sleep can count on it only if nobody needs it.
-/

namespace Monitor

variable {σ τ κ α ρ : Type}

/-- A call with its flag set fails where its result would be an effect. -/
def failing (body : α → σ → Section σ κ ρ) (effect : ρ → Bool) :
    α × Bool → σ → Section σ κ (Option ρ)
  | (a, fails), d =>
    match body a d with
    | .wait c => .wait c
    | .exit d' signals r =>
      if effect r && fails then .exit d [] none else .exit d' signals (some r)

/-- The call left without a result. -/
def Outcome.Fails (o : Outcome κ α (Option ρ)) : Prop := ∃ a, o = .returns a none

variable {body : α → σ → Section σ κ ρ} {effect : ρ → Bool} {I : σ → Prop} {target : α → Option κ}
  {supply : κ → σ → ℕ∞}

lemma failing_wait_iff {x : α × Bool} {d : σ} {c : κ} :
    failing body effect x d = .wait c ↔ body x.1 d = .wait c := by
  cases hb : body x.1 d with
  | wait e => simp [failing, hb]
  | exit d' signals r => cases he : effect r && x.2 <;> simp [failing, hb, he]

/-- A call that leaves does what it does without failures, or nothing. -/
lemma failing_exit_cases {x : α × Bool} {d d' : σ} {signals : List (Signal κ)} {r : Option ρ}
    (h : failing body effect x d = .exit d' signals r) :
    (∃ r', r = some r' ∧ body x.1 d = .exit d' signals r') ∨
      (r = none ∧ d' = d ∧ signals = [] ∧
        ∃ e signals' r', body x.1 d = .exit e signals' r' ∧ effect r' = true) := by
  cases hb : body x.1 d with
  | wait c => simp [failing, hb] at h
  | exit e signals' r' =>
    cases he : effect r' && x.2 with
    | false =>
      simp only [failing, hb, he, Bool.false_eq_true, if_false, Section.exit.injEq] at h
      obtain ⟨rfl, rfl, rfl⟩ := h
      exact .inl ⟨r', rfl, rfl⟩
    | true =>
      simp only [failing, hb, he, if_true, Section.exit.injEq] at h
      obtain ⟨rfl, rfl, rfl⟩ := h
      exact .inr ⟨rfl, rfl, rfl, e, signals', r', rfl, (Bool.and_eq_true_iff.mp he).1⟩

variable [DecidableEq τ] [DecidableEq κ]

/-- A failing step only takes its thread out of the monitor. -/
lemma Step.fails {s s' : State σ τ κ (α × Bool)} {ev : Event τ (α × Bool)}
    {o : Outcome κ (α × Bool) (Option ρ)} (h : Step (failing body effect) s ev o s')
    (ho : o.Fails) : s' = ⟨s.data, s.pool.assign ev.thread .idle⟩ ∧
      ∃ x us d signals r, Ready s ev ev.thread x us ∧ body x.1 s.data = .exit d signals r ∧
        effect r = true := by
  obtain ⟨x, rfl⟩ := ho
  cases h with
  | @exit _ t _ us d signals _ P hr hb hd =>
    rcases failing_exit_cases hb with ⟨r', hr', -⟩ | ⟨-, rfl, rfl, e, signals', r', hbody, heffect⟩
    · cases hr'
    · rw [hr.thread_eq]
      refine ⟨?_, x, us, e, signals', r', hr, hbody, heffect⟩
      cases us with
      | nil =>
        cases hd
        rfl
      | cons u us => cases hd

/-- Thread `t` can leave without a trace: wherever it was woken from, nobody else sleeps or
the other woken threads account for the supply. -/
def Spare (supply : κ → σ → ℕ∞) (s : State σ τ κ α) (t : τ) : Prop :=
  ∀ c, t ∈ s.pool.wokenFrom c → (s.pool.sleepers c).Nonempty →
    supply c s.data ≤ ((s.pool.wokenFrom c).erase t).card

/-- A thread that comes from outside the monitor holds no notification. -/
lemma spare_of_idle {s : State σ τ κ α} {t : τ} (ht : s.pool.phase t = .idle) :
    Spare supply s t := by
  intro c hc
  obtain ⟨a, ha⟩ := (Pool.mem_wokenFrom _ _ _).mp hc
  rw [ht] at ha
  cases ha

/-- A thread that leaves without a trace keeps the supply covered if and only if it is spare. -/
theorem Covered.leave_iff {s : State σ τ κ α} {t : τ} (hs : Covered supply s)
    (ht : ∀ c, t ∉ s.pool.sleepers c) :
    Covered supply (⟨s.data, s.pool.assign t .idle⟩ : State σ τ κ α) ↔ Spare supply s t := by
  have hsleepers : ∀ c, (s.pool.assign t .idle).sleepers c = s.pool.sleepers c := fun c => by
    simp [Pool.sleepers_assign, Phase.isAsleepOn, Finset.erase_eq_of_notMem (ht c)]
  constructor
  · intro h c _ hc
    have hleft := h c ((hsleepers c).symm ▸ hc)
    rwa [Pool.wokenFrom_leave] at hleft
  · intro h c hc
    have hc' : (s.pool.sleepers c).Nonempty := hsleepers c ▸ hc
    rw [Pool.wokenFrom_leave]
    by_cases hmem : t ∈ s.pool.wokenFrom c
    · exact h c hmem hc'
    · rw [Finset.erase_eq_of_notMem hmem]
      exact hs c hc'

lemma Step.failing_targeted (ha : Accounted body I target supply) {s s' : State σ τ κ (α × Bool)}
    {ev : Event τ (α × Bool)} {o : Outcome κ (α × Bool) (Option ρ)}
    (hs : s.pool.Targeted fun x => target x.1) (h : Step (failing body effect) s ev o s') :
    s'.pool.Targeted fun x => target x.1 :=
  h.targeted (fun _ _ _ hb => ha.waits_target _ _ _ (failing_wait_iff.mp hb)) hs

lemma failing_keeps (ha : Accounted body I target supply) : Keeps (failing body effect) I := by
  intro x d d' signals r hd hb
  rcases failing_exit_cases hb with ⟨r', -, hbody⟩ | ⟨-, rfl, -⟩
  · exact ha.keeps _ _ _ _ _ hd hbody
  · exact hd

/-- Only a failure of a thread that is not spare uncovers the supply. -/
theorem Step.failing_covered (ha : Accounted body I target supply)
    {s s' : State σ τ κ (α × Bool)} {ev : Event τ (α × Bool)}
    {o : Outcome κ (α × Bool) (Option ρ)} (hI : I s.data)
    (ht : s.pool.Targeted fun x => target x.1) (hs : Covered supply s)
    (h : Step (failing body effect) s ev o s') (hspare : o.Fails → Spare supply s ev.thread) :
    Covered supply s' := by
  cases h with
  | sleep hr hb =>
    have hbody := failing_wait_iff.mp hb
    exact hs.sleep ht hr (ha.waits_target _ _ _ hbody) (ha.wait_exhausted _ _ _ hI hbody)
  | @exit _ _ x _ _ _ _ _ hr hb hd =>
    rcases failing_exit_cases hb with ⟨r', rfl, hbody⟩ | ⟨rfl, -⟩
    · exact hs.exit ht hr (ha.exit_balance _ _ _ _ _ hI hbody) hd
    · have hfails : (Outcome.returns x none : Outcome κ (α × Bool) (Option ρ)).Fails := ⟨x, rfl⟩
      obtain ⟨hleave, -⟩ := Step.fails (.exit hr hb hd) hfails
      rw [hleave]
      refine (hs.leave_iff fun c => ?_).mpr (hspare hfails)
      rw [hr.thread_eq]
      exact hr.not_asleep c
  | wake hp => exact hs.wake hp

/-- Runs in which every failing thread is spare when it fails. -/
theorem Run.failing_covered (ha : Accounted body I target supply) {d : σ}
    {s : State σ τ κ (α × Bool)} {tr : List (Transition σ τ κ (α × Bool) (Option ρ))}
    (h : Run (failing body effect) ⟨d, .empty⟩ tr s) (hd : I d)
    (hspare : ∀ x ∈ tr, x.outcome.Fails → Spare supply x.pre x.event.thread) :
    I s.data ∧ (s.pool.Targeted fun x => target x.1) ∧ Covered supply s := by
  induction h with
  | nil =>
    refine ⟨hd, ?_, ?_⟩
    · rintro t c a (ht | ht) <;> cases ht
    · intro c hc
      simp at hc
  | snoc _ hstep ih =>
    obtain ⟨hI, ht, hs⟩ := ih fun x hx => hspare x (List.mem_append_left _ hx)
    have hlast := hspare _ (List.mem_append_right _ (List.mem_singleton_self _))
    exact ⟨hstep.data_invariant (failing_keeps ha) hI, hstep.failing_targeted ha ht,
      hstep.failing_covered ha hI ht hs hlast⟩

end Monitor
