import StupidAR.Renderer.Discipline

/-!
# The course of calls

What the discipline gives in every reachable state, and that a call which has entered the
interface lock comes out again: where it waits for `Receive` to complete, the source thread
gets out without the lock that the call holds.
-/

namespace StupidAR

open Monitor Relation

namespace Source

/-- `Receive` may still have the held sample to render. -/
def engaged : Source → Bool
  | idle | cancelled | failed _ => false
  | _ => true

/-- `m_bInReceive` is set. -/
def receiving : Source → Bool
  | prepared | pauseSeen | signalReady | waiting | cancelled | fired | rendering => true
  | _ => false

/-- How many steps `Receive` may take until it needs the interface lock or returns. -/
def stepsLeft : Source → ℕ
  | prepared | signalReady => 4
  | waiting => 3
  | fired => 2
  | pauseSeen | cancelled | rendering => 1
  | _ => 0

end Source

/-- A world without a clock, in which no timer can be set. -/
def noClock : Surroundings where
  getTime := 0
  adviseTime _ _ := none
  timeSetEvent _ := 0
  cookie_ne_zero := by simp

namespace System

structure Controlled (s : System) : Prop where
  stable : s.renderer.core.Stable
  outline : Disciplined s.locked s.renderer.core
  engaged : s.renderer.core.holding = true → s.source.engaged = true
  receiving : s.renderer.core.inReceive = s.source.receiving

lemma Controlled.settled {s : System} (h : s.Controlled) (free : s.locked = []) :
    s.renderer.core.Settled := by
  have hout := h.outline
  rwa [free] at hout

end System

lemma Action.holding_effect {a : Action} {c : Core} (h : (a.effect c).holding = true) :
    c.holding = true := by
  cases a <;> first | exact h | cases h

lemma Action.inReceive_effect (a : Action) (c : Core) :
    (a.effect c).inReceive = c.inReceive := by
  cases a <;> rfl

namespace System

variable {s s' : System}

lemma CallStep.controlled (h : CallStep s s') (hs : s.Controlled) : s'.Controlled := by
  obtain ⟨c, free, allowed⟩ := h
  exact ⟨hs.stable, disciplined_request (hs.settled free) c allowed, hs.engaged, hs.receiving⟩

lemma ActStep.controlled (h : ActStep s s') (hs : s.Controlled) : s'.Controlled := by
  cases h with
  | @act env a rest head go =>
    obtain ⟨hstable, hout, hengaged, hreceiving⟩ := hs
    rw [head, Disciplined, Outline.cons_iff] at hout
    have hcore : (a.run env s.renderer).core = a.effect s.renderer.core := Action.core_run env _ a
    constructor
    · exact hcore ▸ Action.stable_effect hout.1 hstable
    · exact hcore ▸ hout.2
    · intro h
      exact hengaged (Action.holding_effect (hcore ▸ h))
    · dsimp only
      rw [hcore, Action.inReceive_effect, hreceiving]

/-- A step of the source thread changes nothing that a call relies on. -/
lemma Controlled.source_moves (hs : s.Controlled) {src : Source} {r : BaseRenderer}
    (hcore : r.core = { s.renderer.core with inReceive := src.receiving })
    (hengaged : s.renderer.core.holding = true → src.engaged = true) :
    Controlled { s with source := src, renderer := r } := by
  have hweak := s.renderer.core.weakens_inReceive src.receiving
  constructor
  · exact hcore ▸ hs.stable.weakens hweak
  · exact hcore ▸ hs.outline.weakens hweak
  · intro h
    exact hengaged (by rwa [hcore] at h)
  · rw [hcore]

lemma Controlled.source_stays (hs : s.Controlled) {src : Source} {r : BaseRenderer}
    (hcore : r.core = s.renderer.core) (hrec : s.source.receiving = src.receiving)
    (hengaged : s.renderer.core.holding = true → src.engaged = true) :
    Controlled { s with source := src, renderer := r } := by
  refine hs.source_moves ?_ hengaged
  rw [hcore, ← hrec, ← hs.receiving]

lemma SourceStep.controlled (h : SourceStep s s') (hs : s.Controlled) : s'.Controlled := by
  cases h with
  | paused pc => exact hs.source_stays rfl (by rw [pc]; rfl) fun _ => rfl
  | notPaused pc => exact hs.source_stays rfl (by rw [pc]; rfl) fun _ => rfl
  | leave pc => exact hs.source_moves rfl fun _ => rfl
  | ready pc => exact hs.source_stays rfl (by rw [pc]; rfl) fun _ => rfl
  | cancel pc hsig =>
    refine hs.source_stays rfl (by rw [pc]; rfl) fun hh => ?_
    have hno := (hs.stable.holding hh).1
    exact absurd (hno.symm.trans hsig) (by simp)
  | fire pc => exact hs.source_stays rfl (by rw [pc]; rfl) fun _ => rfl
  | giveUp pc =>
    refine hs.source_moves rfl fun hh => ?_
    have hno := hs.engaged hh
    rw [pc] at hno
    cases hno
  | fired pc => exact hs.source_stays rfl (by rw [pc]; rfl) fun _ => rfl
  | render pc => exact hs.source_moves rfl fun _ => rfl

/-- A sample is held only while `Receive` is at work on it. -/
lemma Controlled.holding_false (hs : s.Controlled) (hsrc : s.source.engaged = false) :
    s.renderer.core.holding = false := by
  by_contra hh
  have heng := hs.engaged (by simpa using hh)
  exact absurd (hsrc.symm.trans heng) (by simp)

lemma Controlled.receive (hs : s.Controlled) (free : s.locked = []) (pc : s.source = .idle)
    (hconn : s.renderer.connected = true) {d : Delivery} {env : Surroundings}
    {x : HResult × BaseRenderer} (hx : s.renderer.Prepared env d x) :
    Controlled { s with renderer := x.2, source := .afterPrepare x.1 } := by
  have hset := hs.settled free
  have hnone : s.renderer.core.holding = false := hs.holding_false (by rw [pc]; rfl)
  have hkept (hcheck : s.renderer.checkStreaming = .ok) (r : BaseRenderer)
      (hcore : r.core = { s.renderer.core with holding := true, inReceive := true }) :
      Controlled { s with renderer := r, source := .prepared } := by
    unfold BaseRenderer.checkStreaming at hcheck
    split_ifs at hcheck with hst hfl hrt
    have hsig : s.renderer.core.threadSignal = false := by
      by_contra hsig
      exact hfl (hset.signal (by simpa using hsig) hconn hst)
    constructor
    · rw [hcore]
      exact ⟨hs.stable.signal, fun _ =>
        ⟨hsig, Bool.eq_false_iff.mpr hrt, Bool.eq_false_iff.mpr hfl⟩⟩
    · rw [free, hcore]
      exact ⟨hset.streaming, hset.signal, fun _ => ⟨hconn, hst⟩⟩
    · exact fun _ => rfl
    · rw [hcore]
      rfl
  cases hx with
  | @refused hr hfailed complete =>
    have hrec : (Source.afterPrepare hr).receiving = false := by
      unfold Source.afterPrepare
      split_ifs <;> first | rfl | simp_all
    refine hs.source_moves ?_ fun hh => absurd (hnone.symm.trans hh) (by simp)
    rw [hrec]
    rfl
  | kept hcheck => exact hkept hcheck _ rfl
  | scheduled hcheck _ _ _ hr' =>
    refine hkept hcheck _ ?_
    rw [BaseRenderer.core_keepSample, BaseRenderer.scheduleSample_core env _ hr']
    rfl

lemma EntryStep.controlled (h : EntryStep s s') (hs : s.Controlled) : s'.Controlled := by
  cases h with
  | receive env d free pc hconn =>
    exact hs.receive free pc hconn (s.renderer.prepareReceive_prepared env d)
  | firstSampleStopped free pc hst =>
    refine hs.source_stays rfl (by rw [pc]; rfl) fun hh => ?_
    exact absurd hst ((hs.settled free).holding hh).2
  | firstSample free pc hst => exact hs.source_moves rfl fun _ => rfl
  | renderStopped free pc hst =>
    refine hs.source_stays rfl (by rw [pc]; rfl) fun hh => ?_
    exact absurd hst ((hs.settled free).holding hh).2
  | finish env free pc hst =>
    have hcore := s.renderer.core_finishReceive env
    have hset := hs.settled free
    have hweak := s.renderer.core.weakens_lost
    constructor
    · exact hcore ▸ hs.stable.weakens hweak
    · exact hcore ▸ hs.outline.weakens hweak
    · intro h
      rw [hcore] at h
      cases h
    · have hrec := hs.receiving
      rw [pc] at hrec
      rw [hcore]
      exact hrec
  | @failed hr free pc =>
    have hnone : s.renderer.core.holding = false := hs.holding_false (by rw [pc]; rfl)
    have hsample : s.renderer.mediaSample = none := by simpa [BaseRenderer.core] using hnone
    constructor
    · exact hs.stable
    · exact disciplined_errorActions hr _ (hs.settled free) hsample
    · exact fun hh => absurd (hnone.symm.trans hh) (by simp)
    · have hrec := hs.receiving
      rw [pc] at hrec
      exact hrec

lemma ExternalStep.controlled (h : ExternalStep s s') (hs : s.Controlled) : s'.Controlled := by
  cases h with
  | clock => exact ⟨hs.stable, hs.outline, hs.engaged, hs.receiving⟩
  | timer env free =>
    have hcore := s.renderer.core_timerCallback env
    constructor
    · exact hcore ▸ hs.stable
    · exact hcore ▸ hs.outline
    · exact hcore ▸ hs.engaged
    · exact hcore ▸ hs.receiving
  | display free =>
    rcases s.renderer.core_onDisplayChange with hcore | hcore
    · constructor
      · exact hcore ▸ hs.stable
      · exact hcore ▸ hs.outline
      · exact hcore ▸ hs.engaged
      · exact hcore ▸ hs.receiving
    · have hweak := s.renderer.core.weakens_lost
      constructor
      · exact hcore ▸ hs.stable.weakens hweak
      · exact hcore ▸ hs.outline.weakens hweak
      · intro h
        rw [hcore] at h
        cases h
      · rw [hcore]
        exact hs.receiving

lemma Step.controlled (h : Step s s') (hs : s.Controlled) : s'.Controlled := by
  cases h with
  | call h => exact h.controlled hs
  | act h => exact h.controlled hs
  | source h => exact h.controlled hs
  | entry h => exact h.controlled hs
  | external h => exact h.controlled hs

lemma controlled_init : Controlled {} := by
  constructor
  · exact ⟨Bool.false_ne_true.elim, Bool.false_ne_true.elim⟩
  · exact ⟨Bool.false_ne_true.elim, Bool.false_ne_true.elim, Bool.false_ne_true.elim⟩
  · exact Bool.false_ne_true.elim
  · rfl

lemma Reachable.controlled (h : Reachable s) : s.Controlled :=
  invariant_of_step controlled_init (fun _ _ hstep => hstep.controlled) h

lemma Reachable.step (h : Reachable s) (hstep : Step s s') : Reachable s' :=
  ReflTransGen.tail h hstep

/-- A call that finds the source thread outside `Receive` may run to its end. -/
lemma Reachable.finishes (env : Surroundings) (l l' : List Action) {r : BaseRenderer} {src : Source}
    (h : Reachable ⟨r, l ++ l', src⟩) (hin : r.inReceive = false) :
    Reachable ⟨l.foldl (Action.run env) r, l', src⟩ := by
  induction l generalizing r with
  | nil => exact h
  | cons a l ih =>
    refine ih (h.step (.act (.act env rfl fun _ => hin))) ?_
    have hsame := Action.inReceive_effect a r.core
    rw [← Action.core_run env r a] at hsame
    exact hsame.trans hin

/-- A call that has entered the interface lock may go on as long as it does not wait. -/
lemma Reachable.goesOn (env : Surroundings) (l l' : List Action) {r : BaseRenderer} {src : Source}
    (h : Reachable ⟨r, l ++ l', src⟩) (hl : l.all fun a => !a.waits) :
    Reachable ⟨l.foldl (Action.run env) r, l', src⟩ := by
  induction l generalizing r with
  | nil => exact h
  | cons a l ih =>
    rw [List.all_cons, Bool.and_eq_true] at hl
    exact ih (h.step (.act (.act env rfl fun hw => by simp [hw] at hl))) hl.2

/-- A step of one of the filter's threads. -/
inductive ThreadStep (s s' : System) : Prop
  | call (h : CallStep s s')
  | act (h : ActStep s s')
  | source (h : SourceStep s s')
  | entry (h : EntryStep s s')

/-- `During s n s'`: from `s` to `s'` one call is inside the interface lock all the time, and
the filter's threads take `n` steps. -/
inductive During (s : System) : ℕ → System → Prop
  | refl : During s 0 s
  | thread {n : ℕ} {t u : System} (h : During s n t) (busy : t.locked ≠ [])
    (hstep : ThreadStep t u) : During s (n + 1) u
  | external {n : ℕ} {t u : System} (h : During s n t) (busy : t.locked ≠ [])
    (hstep : ExternalStep t u) : During s n u

def stepsLeft (s : System) : ℕ := s.locked.length + s.source.stepsLeft

lemma SourceStep.stepsLeft_lt (h : SourceStep s s') : s'.stepsLeft < s.stepsLeft := by
  cases h <;> simp_all [stepsLeft, Source.stepsLeft]

lemma ThreadStep.stepsLeft_lt (h : ThreadStep s s') (busy : s.locked ≠ []) :
    s'.stepsLeft < s.stepsLeft := by
  cases h with
  | call h => cases h with | call c free => exact absurd free busy
  | act h => cases h with | act env head go => simp [stepsLeft, head]
  | source h => exact h.stepsLeft_lt
  | entry h => cases h <;> exact absurd ‹s.locked = []› busy

lemma ExternalStep.stepsLeft_eq (h : ExternalStep s s') : s'.stepsLeft = s.stepsLeft := by
  cases h <;> rfl

lemma During.stepsLeft_le {n : ℕ} (h : During s n s') : n + s'.stepsLeft ≤ s.stepsLeft := by
  induction h with
  | refl => omega
  | thread _ busy hstep ih =>
    have hlt := hstep.stepsLeft_lt busy
    omega
  | external _ _ hstep ih =>
    have heq := hstep.stepsLeft_eq
    omega

lemma length_pauseActions (old : FilterState) : (pauseActions old).length ≤ 8 := by
  unfold pauseActions
  split_ifs <;> simp

lemma length_runActions (old : FilterState) (t : ℤ) : (runActions old t).length ≤ 15 := by
  have hpause := length_pauseActions old
  unfold runActions
  split_ifs
  · simp only [List.length_append, List.length_cons, List.length_nil]
    omega
  · simp

lemma length_actions (c : Request) (r : BaseRenderer) : (c.actions r).length ≤ 15 := by
  cases c with
  | stop | receiveConnection | disconnect =>
    simp only [Request.actions, stopActions]
    split_ifs <;> simp
  | pause =>
    simp only [Request.actions]
    split_ifs
    · simp
    · simp
    · exact Nat.le_trans (length_pauseActions _) (by omega)
  | run t =>
    simp only [Request.actions]
    split_ifs
    · simp
    · simp
    · exact length_runActions _ t
  | setSyncSource | beginFlush | endFlush | endOfStream => simp [Request.actions]

lemma Reachable.length_locked (h : Reachable s) : s.locked.length ≤ 15 := by
  refine invariant_of_step (I := fun s => s.locked.length ≤ 15) (Nat.zero_le _) ?_ h
  intro t u hstep ht
  cases hstep with
  | call h => cases h with | call c => exact length_actions c t.renderer
  | act h =>
    cases h with
    | act env head go =>
      rw [head, List.length_cons] at ht
      exact Nat.le_of_succ_le ht
  | source h => cases h <;> exact ht
  | entry h =>
    cases h with
    | @failed hr =>
      dsimp only [errorActions]
      split_ifs <;> simp
    | _ => exact ht
  | external h => cases h <;> exact ht

/-- A source thread that `WaitForReceiveToComplete` waits for can go on. -/
lemma Controlled.source_steps (hs : s.Controlled) (hin : s.renderer.core.inReceive = true)
    (hsig : s.renderer.core.threadSignal = true) : ∃ s', SourceStep s s' := by
  rw [hs.receiving] at hin
  cases hsrc : s.source with
  | prepared =>
    by_cases hst : s.renderer.state = .paused
    · exact ⟨_, .paused hsrc hst⟩
    · exact ⟨_, .notPaused hsrc hst⟩
  | pauseSeen => exact ⟨_, .leave hsrc⟩
  | signalReady => exact ⟨_, .ready hsrc⟩
  | waiting => exact ⟨_, .cancel hsrc hsig⟩
  | cancelled => exact ⟨_, .giveUp hsrc⟩
  | fired => exact ⟨_, .fired hsrc⟩
  | rendering => exact ⟨_, .render hsrc⟩
  | idle | firstSample | renderLock | failed => simp [hsrc, Source.receiving] at hin

/-- A call inside the interface lock never waits for ever: it or the source thread can always
go on, and after a bounded number of such steps the call has returned, whatever the clock, the
timer and the display do meanwhile. -/
theorem call_returns (h : Reachable s) (busy : s.locked ≠ []) :
    (∃ s', ThreadStep s s') ∧
      ∀ n s', During s n s' → n ≤ s.locked.length + s.source.stepsLeft ∧ n ≤ 19 := by
  have hs := h.controlled
  constructor
  · obtain ⟨a, rest, head⟩ := List.exists_cons_of_ne_nil busy
    by_cases hblocked : a.waits = true ∧ s.renderer.inReceive = true
    · have hout := hs.outline
      rw [head, Disciplined, Outline.cons_iff] at hout
      have hsig : s.renderer.core.threadSignal = true := by
        cases a <;> first | exact hout.1 | cases hblocked.1
      obtain ⟨s', hstep⟩ := hs.source_steps hblocked.2 hsig
      exact ⟨s', .source hstep⟩
    · refine ⟨_, .act (.act noClock head fun hw => ?_)⟩
      by_contra hin
      exact hblocked ⟨hw, by simpa using hin⟩
  · intro n s' hn
    have hle := hn.stepsLeft_le
    have hlen := h.length_locked
    have hsrc : s.source.stepsLeft ≤ 4 := by cases s.source <;> simp [Source.stepsLeft]
    unfold stepsLeft at hle
    omega

end System

def untimed (id : ℕ) : Delivery where
  sample := ⟨id, none⟩
  properties := true
  mediaType := true
  tStop := 0

namespace System

/-- A filter that has been connected and run. The pause on the way leaves the state change
incomplete. -/
def runningRenderer (clock : Bool) : BaseRenderer where
  state := .running
  connected := true
  clock := clock
  evComplete := false
  streaming := true
  notices := [.streamReset]

lemma reachable_running (clock : Bool) : Reachable { renderer := runningRenderer clock } := by
  have h₀ : Reachable {} := .refl
  have h₁ := h₀.step (.call (.call (.setSyncSource clock) rfl rfl))
  have h₂ : Reachable { renderer := { clock := clock } } :=
    h₁.finishes noClock [.setClock clock] [] rfl
  have h₃ := h₂.step (.call (.call .receiveConnection rfl trivial))
  have h₄ : Reachable { renderer := { clock := clock, connected := true } } :=
    h₃.finishes noClock [.setConnected true] [] rfl
  have h₅ := h₄.step (.call (.call (.run 0) rfl trivial))
  exact h₅.finishes noClock (runActions .stopped 0) [] rfl

/-- A connected filter is paused, gets its first sample and is stopped again. -/
lemma reachable_stopping : ∃ s, Reachable s ∧ s.locked = [.waitReceive, .clearAbort] ∧
    s.source = .waiting ∧ s.renderer.inReceive = true := by
  have h₀ : Reachable {} := .refl
  have h₁ := h₀.step (.call (.call .receiveConnection rfl trivial))
  have h₂ := h₁.finishes noClock [.setConnected true] [] rfl
  have h₃ := h₂.step (.call (.call .pause rfl trivial))
  have h₄ := h₃.finishes noClock (pauseActions .stopped) [] rfl
  have h₅ := h₄.step (.entry (.receive noClock (untimed 1) rfl rfl rfl))
  have h₆ := h₅.step (.source (.paused rfl rfl))
  have h₇ := h₆.step (.source (.leave rfl))
  have h₈ := h₇.step (.entry (.firstSample rfl rfl (by decide)))
  have h₉ := h₈.step (.source (.ready rfl))
  have h₁₀ := h₉.step (.call (.call .stop rfl trivial))
  have h₁₁ := h₁₀.goesOn noClock (stopActions.take 8) [.waitReceive, .clearAbort] rfl
  exact ⟨_, h₁₁, rfl, rfl, rfl⟩

theorem call_returns_stop : ∃ s, Reachable s ∧ s.locked = [.waitReceive, .clearAbort] ∧
    s.source = .waiting ∧ s.renderer.inReceive = true ∧ (∃ s', ThreadStep s s') ∧
      ∀ n s', During s n s' → n ≤ 5 := by
  obtain ⟨s, h, hl, hsrc, hin⟩ := reachable_stopping
  have hret := call_returns h (by simp [hl])
  rw [hl, hsrc] at hret
  exact ⟨s, h, hl, hsrc, hin, hret.1, fun n s' hn => (hret.2 n s' hn).1⟩

end System

end StupidAR
