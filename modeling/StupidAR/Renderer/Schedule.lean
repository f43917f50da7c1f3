import StupidAR.Renderer.EndOfStream

/-!
# The render time

A held sample waits for its render time with the render event, which is set at once for a
sample without a time and by the clock otherwise. A state change cancels what the clock has
been asked for; the source thread clears it again when it wakes, perhaps after the next
request. No sample is left waiting for an event that nobody will set.
-/

namespace StupidAR

open Monitor

/-- The source thread has yet to wait for the render time. -/
def Source.early : Source → Bool
  | prepared | pauseSeen | firstSample | signalReady | waiting => true
  | _ => false

structure Alarm where
  advise : ℕ
  clock : Bool
  renderEvent : Bool

namespace BaseRenderer

variable {r r' : BaseRenderer} {env : Surroundings}

/-- What has been asked of the clock, and whether the render event is set. -/
def alarm (r : BaseRenderer) : Alarm := ⟨r.advise, r.clock, r.renderEvent⟩

/-- A sample is scheduled at once or with a clock. -/
lemma scheduleSample_cases {s : MediaSample} (h : r.scheduleSample env s = some r') :
    r'.alarm = { r.alarm with renderEvent := true } ∨ r'.advise ≠ 0 ∧ r'.clock = true := by
  unfold scheduleSample getSampleTimes at h
  split at h
  · cases h
  · cases h
    exact .inl rfl
  · next start hdue =>
    obtain ⟨cookie, hcookie, rfl⟩ := Option.map_eq_some_iff.mp h
    refine .inr ⟨env.cookie_ne_zero hcookie, ?_⟩
    split at hdue
    · cases hdue
    · split_ifs at hdue with _ hclock
      simpa using hclock

lemma Sent.alarm_eq (h : r.Sent r') : r'.alarm = r.alarm := by
  cases h <;> rfl

lemma alarm_timerCallback (env : Surroundings) (r : BaseRenderer) :
    (r.timerCallback env).alarm = r.alarm := by
  unfold timerCallback
  split_ifs
  · rfl
  · exact (sendEndOfStream_sent env _).alarm_eq

lemma alarm_clearPendingSample : r.clearPendingSample.alarm = r.alarm := by
  unfold clearPendingSample
  split <;> rfl

lemma alarm_completeStateChange (old : FilterState) :
    (r.completeStateChange old).alarm = r.alarm := by
  unfold completeStateChange
  split_ifs <;> rfl

lemma alarm_endOfStream : (r.endOfStream env).alarm = r.alarm := by
  unfold endOfStream
  split_ifs
  · rfl
  · rfl
  · exact (sendEndOfStream_sent env _).alarm_eq
  · rfl

lemma alarm_endStreamOnError : r.endStreamOnError.alarm = r.alarm := by
  unfold endStreamOnError notifyEndOfStream
  split_ifs <;> rfl

lemma alarm_onDisplayChange : r.onDisplayChange.alarm = r.alarm := by
  unfold onDisplayChange
  split_ifs
  · rfl
  · exact alarm_clearPendingSample

lemma advise_cancelNotification : r.cancelNotification.advise = 0 := by
  unfold cancelNotification
  split_ifs with h
  · exact h
  · rfl

lemma advise_beginFlush : r.beginFlush.advise = 0 :=
  (congrArg Alarm.advise alarm_clearPendingSample).trans advise_cancelNotification

lemma advise_finishReceive : (r.finishReceive env).advise = 0 :=
  advise_cancelNotification

/-- A held sample is scheduled when streaming starts. -/
lemma startStreaming_cases (env : Surroundings) (r : BaseRenderer) :
    (r.startStreaming env).alarm = r.alarm ∧ (r.streaming = true ∨ r.core.holding = false) ∨
      (r.startStreaming env).alarm = { r.alarm with renderEvent := true } ∨
      r.core.holding = true ∧ (r.startStreaming env).advise ≠ 0 ∧
        (r.startStreaming env).clock = true := by
  unfold startStreaming
  split_ifs with hs
  · exact .inl ⟨rfl, .inl hs⟩
  · split
    · next hsample =>
      refine .inl ⟨?_, .inr (by simp [core, hsample])⟩
      exact (sendEndOfStream_sent env { r with streaming := true }).alarm_eq
    · next s hsample =>
      right
      cases hr : scheduleSample env { r with streaming := true } s with
      | none => exact .inl rfl
      | some r' =>
        rcases scheduleSample_cases hr with hnow | hdue
        · exact .inl hnow
        · exact .inr ⟨by simp [core, hsample], hdue⟩

end BaseRenderer

/-- Only these change what has been asked of the clock. -/
def Action.setsAlarm : Action → Bool
  | setClock _ | startStreaming | cancelNotification | beginFlush => true
  | _ => false

lemma Action.alarm_run {a : Action} (ha : a.setsAlarm = false) (env : Surroundings)
    (r : BaseRenderer) : (a.run env r).alarm = r.alarm := by
  cases a with
  | setClock | startStreaming | cancelNotification | beginFlush => cases ha
  | completeStateChange old => exact BaseRenderer.alarm_completeStateChange old
  | clearPendingSample => exact BaseRenderer.alarm_clearPendingSample
  | inactive => exact BaseRenderer.alarm_clearPendingSample
  | endOfStream => exact BaseRenderer.alarm_endOfStream
  | endStreamOnError => exact BaseRenderer.alarm_endStreamOnError
  | setConnected b => cases b <;> rfl
  | _ => rfl

namespace System

/-- What has been asked of the clock is for a sample of the stream that plays, unless the call
inside the interface lock is about to cancel it. -/
def Advised (s : System) : Prop :=
  s.renderer.advise ≠ 0 → s.renderer.clock = true ∧
    (Action.cancelNotification ∈ s.locked ∨ s.renderer.streaming = true ∧
      s.source.engaged = true ∧ s.renderer.threadSignal = false ∧ s.renderer.flushing = false)

/-- A held sample of a stream that plays has a render event to wait for. -/
def Scheduled (s : System) : Prop :=
  s.source.early = true → s.renderer.core.holding = true → s.renderer.streaming = true →
    s.renderer.renderEvent = true ∨ s.renderer.advise ≠ 0

variable {s s' : System}

lemma Advised.pop (h : s.Advised) {a : Action} {rest : List Action} (head : s.locked = a :: rest)
    (hne : a ≠ .cancelNotification) {r : BaseRenderer}
    (hadvise : r.advise = s.renderer.advise) (hclock : r.clock = s.renderer.clock)
    (hstreaming : s.renderer.streaming = true → r.streaming = true)
    (hsignal : s.renderer.threadSignal = false → r.threadSignal = false)
    (hflushing : s.renderer.flushing = false → r.flushing = false) :
    Advised { s with renderer := r, locked := rest } := by
  intro hadv
  obtain ⟨hclock', hwhy⟩ := h (hadvise ▸ hadv)
  rw [head] at hwhy
  refine ⟨hclock.trans hclock', ?_⟩
  rcases hwhy with hmem | ⟨hs, hsrc, hsig, hfl⟩
  · exact .inl (List.mem_of_ne_of_mem hne.symm hmem)
  · exact .inr ⟨hstreaming hs, hsrc, hsignal hsig, hflushing hfl⟩

lemma ActStep.advised (h : ActStep s s') (hs : s.Controlled) (hadv : s.Advised) :
    s'.Advised := by
  cases h with
  | @act env a rest head go =>
    have hout := hs.outline
    rw [head, Disciplined, Outline.cons_iff] at hout
    obtain ⟨ha, hrest⟩ := hout
    have hcore := Action.core_run env s.renderer a
    have hsame (h : a.setsAlarm = false) := Action.alarm_run h env s.renderer
    cases a with
    | cancelNotification => exact fun hne => absurd BaseRenderer.advise_cancelNotification hne
    | beginFlush => exact fun hne => absurd BaseRenderer.advise_beginFlush hne
    | setClock clock =>
      intro hne
      obtain ⟨hst, rfl⟩ := ha
      obtain ⟨-, hmem | hplays⟩ := hadv hne
      · simp [head] at hmem
      · have hset : s.renderer.core.Settled := hrest
        have hrun := (hset.streaming hplays.1).1
        exact absurd (hst.symm.trans hrun) (by simp)
    | startStreaming =>
      have hpop := hadv.pop (r := s.renderer.startStreaming env) head (by simp)
      have hplays : (s.renderer.startStreaming env).streaming = true :=
        congrArg Core.streaming hcore
      have hsignal := congrArg Core.threadSignal hcore
      have hflushing := congrArg Core.flushing hcore
      rcases s.renderer.startStreaming_cases env with ⟨hsame, -⟩ | hsame | ⟨hh, hne, hclock⟩
      · exact hpop (congrArg Alarm.advise hsame) (congrArg Alarm.clock hsame) (fun _ => hplays)
          hsignal.trans hflushing.trans
      · exact hpop (congrArg Alarm.advise hsame) (congrArg Alarm.clock hsame) (fun _ => hplays)
          hsignal.trans hflushing.trans
      · obtain ⟨hsig, -, hfl⟩ := hs.stable.holding hh
        exact fun _ => ⟨hclock, .inr ⟨hplays, hs.engaged hh, hsignal.trans hsig,
          hflushing.trans hfl⟩⟩
    | stopStreaming =>
      intro hne
      exact ⟨(hadv hne).1, .inl ha⟩
    | canWait b =>
      cases b with
      | true => exact hadv.pop head (by simp) rfl rfl id (fun _ => rfl) id
      | false =>
        intro hne
        exact ⟨(hadv hne).1, .inl ha.2.2⟩
    | endFlush => exact hadv.pop head (by simp) rfl rfl id (fun _ => rfl) fun _ => rfl
    | _ =>
      exact hadv.pop head (by simp) (congrArg Alarm.advise (hsame rfl))
        (congrArg Alarm.clock (hsame rfl))
        (congrArg Core.streaming hcore).trans (congrArg Core.threadSignal hcore).trans
        (congrArg Core.flushing hcore).trans

lemma Advised.of_eq (h : s.Advised) {r : BaseRenderer} {src : Source}
    (halarm : r.advise = s.renderer.advise ∧ r.clock = s.renderer.clock)
    (hcore : r.streaming = s.renderer.streaming ∧ r.threadSignal = s.renderer.threadSignal ∧
      r.flushing = s.renderer.flushing)
    (hengaged : s.renderer.threadSignal = false → s.renderer.streaming = true →
      s.source.engaged = true → src.engaged = true) :
    Advised { s with renderer := r, source := src } := by
  intro hne
  obtain ⟨hclock, hwhy⟩ := h (halarm.1 ▸ hne)
  refine ⟨halarm.2.trans hclock, hwhy.imp_right ?_⟩
  rintro ⟨hs, hsrc, hsig, hfl⟩
  exact ⟨hcore.1.trans hs, hengaged hsig hs hsrc, hcore.2.1.trans hsig, hcore.2.2.trans hfl⟩

lemma SourceStep.advised (h : SourceStep s s') (hadv : s.Advised) : s'.Advised := by
  cases h with
  | cancel pc hsig =>
    refine hadv.of_eq ⟨rfl, rfl⟩ ⟨rfl, rfl, rfl⟩ fun hno => ?_
    exact absurd (hno.symm.trans hsig) (by simp)
  | giveUp pc =>
    refine hadv.of_eq ⟨rfl, rfl⟩ ⟨rfl, rfl, rfl⟩ fun _ _ hsrc => ?_
    rw [pc] at hsrc
    cases hsrc
  | fired pc => exact fun hne => absurd rfl hne
  | _ => exact hadv.of_eq ⟨rfl, rfl⟩ ⟨rfl, rfl, rfl⟩ fun _ _ _ => rfl

/-- Outside `Receive` nothing is asked of the clock while the interface lock is free. -/
lemma Advised.none (h : s.Advised) (free : s.locked = [])
    (hno : s.renderer.streaming = false ∨ s.source.engaged = false) : s.renderer.advise = 0 := by
  by_contra hne
  obtain ⟨-, hmem | ⟨hs, hsrc, -⟩⟩ := h hne
  · simp [free] at hmem
  · rcases hno with hno | hno
    · exact absurd (hno.symm.trans hs) (by simp)
    · exact absurd (hno.symm.trans hsrc) (by simp)

lemma EntryStep.advised (h : EntryStep s s') (hs : s.Controlled) (hadv : s.Advised) :
    s'.Advised := by
  have hs' := h.controlled hs
  cases h with
  | receive env d free pc hconn =>
    have hidle : s.renderer.advise = 0 := hadv.none free (.inr (by rw [pc]; rfl))
    have hx := s.renderer.prepareReceive_prepared env d
    generalize s.renderer.prepareReceive env d = x at hx hs'
    cases hx with
    | refused => exact fun hne => absurd hidle hne
    | kept => exact fun hne => absurd hidle hne
    | @scheduled _ _ _ hplays r' hr' =>
      intro hne
      obtain ⟨hsig, -, hfl⟩ := hs'.stable.holding rfl
      rcases BaseRenderer.scheduleSample_cases hr' with hnow | hdue
      · exact absurd ((congrArg Alarm.advise hnow).trans hidle) hne
      · have hcore := BaseRenderer.scheduleSample_core env _ hr'
        exact ⟨hdue.2, .inr ⟨(congrArg Core.streaming hcore).trans hplays, rfl, hsig, hfl⟩⟩
  | firstSampleStopped free pc hst =>
    refine hadv.of_eq ⟨rfl, rfl⟩ ⟨rfl, rfl, rfl⟩ fun _ hplays => ?_
    exact absurd (hst.symm.trans ((hs.settled free).streaming hplays).1) (by simp)
  | firstSample free pc hst => exact hadv.of_eq ⟨rfl, rfl⟩ ⟨rfl, rfl, rfl⟩ fun _ _ _ => rfl
  | renderStopped free pc hst =>
    refine hadv.of_eq ⟨rfl, rfl⟩ ⟨rfl, rfl, rfl⟩ fun _ hplays => ?_
    exact absurd (hst.symm.trans ((hs.settled free).streaming hplays).1) (by simp)
  | finish => exact fun hne => absurd BaseRenderer.advise_finishReceive hne
  | failed free pc => exact fun hne => absurd (hadv.none free (.inr (by rw [pc]; rfl))) hne

lemma ExternalStep.advised (h : ExternalStep s s') (hadv : s.Advised) : s'.Advised := by
  cases h with
  | clock => exact hadv.of_eq ⟨rfl, rfl⟩ ⟨rfl, rfl, rfl⟩ fun _ _ => id
  | timer env =>
    have halarm := s.renderer.alarm_timerCallback env
    have hcore := s.renderer.core_timerCallback env
    exact hadv.of_eq ⟨congrArg Alarm.advise halarm, congrArg Alarm.clock halarm⟩
      ⟨congrArg Core.streaming hcore, congrArg Core.threadSignal hcore,
        congrArg Core.flushing hcore⟩ fun _ _ => id
  | display =>
    have halarm := s.renderer.alarm_onDisplayChange
    rcases s.renderer.core_onDisplayChange with hcore | hcore <;>
      exact hadv.of_eq ⟨congrArg Alarm.advise halarm, congrArg Alarm.clock halarm⟩
        ⟨congrArg Core.streaming hcore, congrArg Core.threadSignal hcore,
          congrArg Core.flushing hcore⟩ fun _ _ => id

lemma Step.advised (h : Step s s') (hs : s.Controlled) (hadv : s.Advised) : s'.Advised := by
  cases h with
  | call h =>
    cases h with
    | call c free =>
      intro hne
      obtain ⟨hclock, hmem | hwhy⟩ := hadv hne
      · simp [free] at hmem
      · exact ⟨hclock, .inr hwhy⟩
  | act h => exact h.advised hs hadv
  | source h => exact h.advised hadv
  | entry h => exact h.advised hs hadv
  | external h => exact h.advised hadv

lemma Reachable.advised (h : Reachable s) : s.Advised :=
  invariant_of_step_of (fun _ => Reachable.controlled) (fun hne => absurd rfl hne)
    (fun _ _ hstep => hstep.advised) h

lemma Scheduled.of_alarm (h : s.Scheduled) {r : BaseRenderer} {l : List Action} {src : Source}
    (halarm : r.alarm = s.renderer.alarm) (hearly : src.early = true → s.source.early = true)
    (hholding : r.core.holding = true → s.renderer.core.holding = true)
    (hstreaming : r.streaming = true → s.renderer.streaming = true) : Scheduled ⟨r, l, src⟩ := by
  intro hsrc hh hs
  rcases h (hearly hsrc) (hholding hh) (hstreaming hs) with hev | hne
  · exact .inl ((congrArg Alarm.renderEvent halarm).trans hev)
  · exact .inr fun h0 => hne ((congrArg Alarm.advise halarm).symm.trans h0)

lemma ActStep.scheduled (h : ActStep s s') (hs : s.Controlled) (hsch : s.Scheduled) :
    s'.Scheduled := by
  cases h with
  | @act env a rest head go =>
    have hout := hs.outline
    rw [head, Disciplined, Outline.cons_iff] at hout
    have ha := hout.1
    have hcore := Action.core_run env s.renderer a
    have hsame (h : a.setsAlarm = false) := Action.alarm_run h env s.renderer
    cases a with
    | cancelNotification =>
      intro _ hh hplays
      rcases ha with hno | hno
      · exact absurd (hno.symm.trans ((congrArg Core.holding hcore).symm.trans hh)) (by simp)
      · exact absurd (hno.symm.trans ((congrArg Core.streaming hcore).symm.trans hplays)) (by simp)
    | beginFlush =>
      intro _ hh _
      exact absurd ((congrArg Core.holding hcore).symm.trans hh) (by simp [Action.effect])
    | setClock clock => exact hsch
    | startStreaming =>
      intro hsrc hh hplays
      have hholding : s.renderer.core.holding = true := (congrArg Core.holding hcore).symm.trans hh
      rcases s.renderer.startStreaming_cases env with ⟨halarm, hplayed | hno⟩ | halarm | hdue
      · rcases hsch hsrc hholding hplayed with hev | hne
        · exact .inl ((congrArg Alarm.renderEvent halarm).trans hev)
        · exact .inr fun h0 => hne ((congrArg Alarm.advise halarm).symm.trans h0)
      · exact absurd (hno.symm.trans hholding) (by simp)
      · exact .inl (congrArg Alarm.renderEvent halarm)
      · exact .inr hdue.2.1
    | stopStreaming =>
      intro _ _ hplays
      exact absurd ((congrArg Core.streaming hcore).symm.trans hplays) (by simp [Action.effect])
    | _ =>
      refine hsch.of_alarm (hsame rfl) id (fun hh => ?_) (congrArg Core.streaming hcore).symm.trans
      exact Action.holding_effect ((congrArg Core.holding hcore).symm.trans hh)

lemma SourceStep.scheduled (h : SourceStep s s') (hsch : s.Scheduled) : s'.Scheduled := by
  cases h with
  | paused pc | notPaused pc | leave pc | ready pc =>
    exact hsch.of_alarm rfl (fun _ => by rw [pc]; rfl) id id
  | cancel | fire | giveUp | fired | render => exact Bool.false_ne_true.elim

lemma EntryStep.scheduled (h : EntryStep s s') (hsch : s.Scheduled) : s'.Scheduled := by
  cases h with
  | receive env d free pc hconn =>
    have hx := s.renderer.prepareReceive_prepared env d
    generalize s.renderer.prepareReceive env d = x at hx
    cases hx with
    | @refused hr hfailed =>
      intro hsrc
      dsimp only [Source.afterPrepare] at hsrc
      split_ifs at hsrc
      · simp_all
      · cases hsrc
      · cases hsrc
    | kept _ _ _ hno => exact fun _ _ hplays => absurd (hno.symm.trans hplays) (by simp)
    | @scheduled _ _ _ hplays r' hr' =>
      intro _ _ _
      exact (BaseRenderer.scheduleSample_cases hr').imp (congrArg Alarm.renderEvent) And.left
  | firstSample free pc => exact hsch.of_alarm rfl (fun _ => by rw [pc]; rfl) id id
  | _ => exact Bool.false_ne_true.elim

lemma ExternalStep.scheduled (h : ExternalStep s s') (hsch : s.Scheduled) : s'.Scheduled := by
  cases h with
  | clock => exact fun _ _ _ => .inl rfl
  | timer env =>
    have hcore := s.renderer.core_timerCallback env
    exact hsch.of_alarm (s.renderer.alarm_timerCallback env) id
      (congrArg Core.holding hcore).symm.trans (congrArg Core.streaming hcore).symm.trans
  | display =>
    rcases s.renderer.core_onDisplayChange with hcore | hcore
    · exact hsch.of_alarm s.renderer.alarm_onDisplayChange id
        (congrArg Core.holding hcore).symm.trans (congrArg Core.streaming hcore).symm.trans
    · intro _ hh _
      exact absurd ((congrArg Core.holding hcore).symm.trans hh) (by simp)

lemma Step.scheduled (h : Step s s') (hs : s.Controlled) (hsch : s.Scheduled) :
    s'.Scheduled := by
  cases h with
  | call h => cases h with | call => exact hsch
  | act h => exact h.scheduled hs hsch
  | source h => exact h.scheduled hsch
  | entry h => exact h.scheduled hsch
  | external h => exact h.scheduled hsch

lemma Reachable.scheduled (h : Reachable s) : s.Scheduled :=
  invariant_of_step_of (fun _ => Reachable.controlled) Bool.false_ne_true.elim
    (fun _ _ hstep => hstep.scheduled) h

/-- A source thread that waits for the render time of a held sample is not left waiting: while
the stream plays the event is set or a clock has been asked for it, and the wait is not cut
short with the sample still held. While the interface lock is free, a request to the clock is
out only for a stream that plays, and none when `Receive` is entered. -/
theorem render_time_scheduled (h : Reachable s) :
    (s.source = .waiting → s.renderer.mediaSample ≠ none → s.renderer.threadSignal = false ∧
      (s.renderer.streaming = true → s.renderer.renderEvent = true ∨
        s.renderer.advise ≠ 0 ∧ s.renderer.clock = true)) ∧
    (s.locked = [] → s.renderer.advise ≠ 0 → s.renderer.streaming = true ∧
      s.renderer.flushing = false ∧ s.source ≠ .idle) := by
  have hadv := h.advised
  constructor
  · intro hsrc hsample
    have hh : s.renderer.core.holding = true := by
      simpa [BaseRenderer.core, Option.isSome_iff_ne_none] using hsample
    refine ⟨(h.controlled.stable.holding hh).1, fun hplays => ?_⟩
    exact (h.scheduled (by rw [hsrc]; rfl) hh hplays).imp_right fun hne => ⟨hne, (hadv hne).1⟩
  · intro free hne
    obtain ⟨-, hmem | ⟨hplays, hsrc, -, hfl⟩⟩ := hadv hne
    · simp [free] at hmem
    · exact ⟨hplays, hfl, fun hidle => by simp [hidle, Source.engaged] at hsrc⟩

/-- A sample that is due later waits for the clock. -/
theorem render_time_scheduled_later : ∃ s, Reachable s ∧ s.source = .waiting ∧
    s.renderer.threadSignal = false ∧
    (s.renderer.renderEvent = true ∨ s.renderer.advise ≠ 0 ∧ s.renderer.clock = true) := by
  let env : Surroundings := ⟨0, fun _ _ => some 7, fun _ => 0, by simp⟩
  have h₁ := reachable_running true
  have h₂ := h₁.step (.entry (.receive env ⟨⟨1, some (5, 6)⟩, true, true, 6⟩ rfl rfl rfl))
  have h₃ := h₂.step (.source (.notPaused rfl (by decide)))
  obtain ⟨hsig, hevent⟩ := (render_time_scheduled h₃).1 rfl (by decide)
  exact ⟨_, h₃, rfl, hsig, hevent rfl⟩

end System

end StupidAR
