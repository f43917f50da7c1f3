import StupidAR.Renderer.Notices

/-!
# The end of a stream

The end of a stream may arrive while the last sample is still held, while the source thread
is inside `Receive`, before the filter runs or after a flush has begun. Whichever it is, the
completion is announced, or a timer is set for it, unless the stream is stopped or flushed.
-/

namespace StupidAR

open Monitor

namespace BaseRenderer

/-- The stream has ended and its last sample is gone, but nobody is about to say so. -/
structure Owed (r : BaseRenderer) : Prop where
  streaming : r.streaming = true
  eos : r.eos = true
  sample : r.mediaSample = none
  told : r.eosDelivered = false
  timer : r.endOfStreamTimer = 0

variable {r r' : BaseRenderer}

lemma Sent.not_owed (h : r.Sent r') : ¬ r'.Owed := by
  rintro ⟨hs, heos, -, htold, htimer⟩
  cases h with
  | skip h =>
    rcases h with h | h | h | h
    · exact absurd (h.symm.trans heos) (by simp)
    · exact absurd (htold.symm.trans h) (by simp)
    · exact h htimer
    · exact absurd (h.symm.trans hs) (by simp)
  | complete => cases htold
  | arm _ _ n hn => exact hn htimer

lemma Sent.eos_eq (h : r.Sent r') : r'.eos = r.eos := by
  cases h <;> rfl

lemma Owed.of_cancelNotification (h : r.cancelNotification.Owed) : r.Owed := by
  unfold cancelNotification at h
  split_ifs at h <;> exact ⟨h.streaming, h.eos, h.sample, h.told, h.timer⟩

lemma Owed.of_completeStateChange {old : FilterState} (h : (r.completeStateChange old).Owed) :
    r.Owed := by
  unfold completeStateChange at h
  split_ifs at h <;> exact ⟨h.streaming, h.eos, h.sample, h.told, h.timer⟩

lemma not_owed_of_holding (h : r.core.holding = true) : ¬ r.Owed := by
  intro howed
  simp [core, howed.sample] at h

lemma Owed.of_timerCallback {env : Surroundings} (h : (r.timerCallback env).Owed) : r.Owed := by
  unfold timerCallback at h
  split_ifs at h
  · exact h
  · exact absurd h (sendEndOfStream_sent env _).not_owed

lemma Owed.of_startStreaming {env : Surroundings} (h : (r.startStreaming env).Owed) : r.Owed := by
  unfold startStreaming at h
  split_ifs at h with hs
  · exact h
  · split at h
    · exact absurd h (sendEndOfStream_sent env _).not_owed
    · next s hsample =>
      cases hr : scheduleSample env { r with streaming := true } s with
      | none =>
        rw [hr] at h
        exact absurd h.sample (by simp [hsample])
      | some r' =>
        rw [hr] at h
        have hcore := scheduleSample_core env _ hr
        have hholding : r'.core.holding = true := by rw [hcore]; simp [core, hsample]
        exact absurd h (not_owed_of_holding hholding)

lemma Owed.of_endOfStream {env : Surroundings} (h : (r.endOfStream env).Owed) : r.Owed := by
  unfold endOfStream at h
  split_ifs at h with hrefused hholding hs
  · exact h
  · exact absurd h (not_owed_of_holding hholding)
  · exact absurd h (sendEndOfStream_sent env _).not_owed
  · exact absurd h.streaming hs

lemma Owed.of_endStreamOnError (h : r.endStreamOnError.Owed) : r.Owed := by
  unfold endStreamOnError notifyEndOfStream at h
  split_ifs at h
  · exact h
  · cases h.told
  · exact h

lemma not_owed_finishReceive (env : Surroundings) : ¬ (r.finishReceive env).Owed := fun h =>
  (sendEndOfStream_sent env _).not_owed h.of_cancelNotification

lemma scheduleSample_eos {env : Surroundings} {s : MediaSample}
    (h : r.scheduleSample env s = some r') : r'.eos = r.eos := by
  unfold scheduleSample at h
  split at h
  · cases h
  · cases h
    rfl
  · obtain ⟨cookie, -, rfl⟩ := Option.map_eq_some_iff.mp h
    rfl

lemma eos_startStreaming (env : Surroundings) : (r.startStreaming env).eos = r.eos := by
  unfold startStreaming
  split_ifs
  · rfl
  · split
    · exact (sendEndOfStream_sent env _).eos_eq
    · next s _ =>
      cases hr : scheduleSample env { r with streaming := true } s with
      | none => rfl
      | some r' =>
        have heos := scheduleSample_eos hr
        exact heos

lemma eos_clearPendingSample : r.clearPendingSample.eos = r.eos := by
  unfold clearPendingSample
  split <;> rfl

lemma eos_cancelNotification : r.cancelNotification.eos = r.eos := by
  unfold cancelNotification
  split_ifs <;> rfl

lemma eos_timerCallback (env : Surroundings) : (r.timerCallback env).eos = r.eos := by
  unfold timerCallback
  split_ifs
  · rfl
  · exact (sendEndOfStream_sent env _).eos_eq

lemma eos_finishReceive (env : Surroundings) : (r.finishReceive env).eos = r.eos := by
  unfold finishReceive
  rw [eos_cancelNotification, (sendEndOfStream_sent env _).eos_eq, eos_clearPendingSample]
  unfold render
  split
  · rfl
  · split_ifs <;> rfl

end BaseRenderer

namespace Action

variable {env : Surroundings} {r : BaseRenderer} {a : Action}

/-- Only these four can leave the renderer owing an announcement that it did not owe. -/
def disowns : Action → Bool
  | killTimer | clearPendingSample | inactive | beginFlush => true
  | _ => false

lemma owed_of_run (h : (a.run env r).Owed) (ha : a.disowns = false) : r.Owed := by
  cases a with
  | completeStateChange old => exact h.of_completeStateChange
  | startStreaming => exact h.of_startStreaming
  | stopStreaming => cases h.streaming
  | cancelNotification => exact h.of_cancelNotification
  | resetEndOfStream => cases h.eos
  | endOfStream => exact h.of_endOfStream
  | endStreamOnError => exact h.of_endStreamOnError
  | killTimer | clearPendingSample | inactive | beginFlush => cases ha
  | setConnected b => cases b <;> exact ⟨h.streaming, h.eos, h.sample, h.told, h.timer⟩
  | _ => exact ⟨h.streaming, h.eos, h.sample, h.told, h.timer⟩

lemma flushing_of_run (h : (a.run env r).flushing = true) (ha : a ≠ .beginFlush) :
    r.flushing = true := by
  have hcore : (a.effect r.core).flushing = true := by rwa [← core_run env r a]
  cases a <;> first | exact hcore | exact absurd rfl ha | cases hcore

/-- A flushing pin takes no end of stream. -/
lemma eos_of_run (heos : (a.run env r).eos = true) (hfl : r.flushing = true) : r.eos = true := by
  cases a with
  | completeStateChange old =>
    simp only [run, BaseRenderer.completeStateChange] at heos
    split_ifs at heos <;> exact heos
  | startStreaming => exact (BaseRenderer.eos_startStreaming env).symm.trans heos
  | cancelNotification => exact BaseRenderer.eos_cancelNotification.symm.trans heos
  | resetEndOfStream => cases heos
  | clearPendingSample => exact BaseRenderer.eos_clearPendingSample.symm.trans heos
  | inactive =>
    simp only [run, BaseRenderer.inactive, BaseRenderer.eos_clearPendingSample] at heos
    exact heos
  | beginFlush =>
    simp only [run, BaseRenderer.beginFlush, BaseRenderer.eos_clearPendingSample,
      BaseRenderer.eos_cancelNotification] at heos
    split_ifs at heos <;> exact heos
  | endOfStream =>
    have hcheck : r.checkStreaming ≠ .ok := by
      unfold BaseRenderer.checkStreaming
      split_ifs <;> simp
    simp only [run, BaseRenderer.endOfStream, if_pos (Or.inl hcheck)] at heos
    exact heos
  | endStreamOnError =>
    simp only [run, BaseRenderer.endStreamOnError, BaseRenderer.notifyEndOfStream] at heos
    split_ifs at heos <;> exact heos
  | setConnected b => cases b <;> exact heos
  | _ => exact heos

end Action

namespace System

/-- An end of stream that nobody will announce is still in the hands of `Receive`, or the call
inside the interface lock is about to end the stream anyway. -/
structure EndKept (s : System) : Prop where
  owed : s.renderer.Owed → s.source.engaged = true ∨ Action.stopStreaming ∈ s.locked ∨
    Action.resetEndOfStream ∈ s.locked
  flush : s.renderer.flushing = true → s.renderer.eos = true → Action.resetEndOfStream ∈ s.locked

variable {s s' : System}

lemma ActStep.endKept (h : ActStep s s') (hs : s.Controlled) (hk : s.EndKept) : s'.EndKept := by
  cases h with
  | @act env a rest head go =>
    have hout := hs.outline
    rw [head, Disciplined, Outline.cons_iff] at hout
    have ha := hout.1
    obtain ⟨howed, hflush⟩ := hk
    rw [head] at howed hflush
    -- an action that is neither of the two leaves them where they are in the list
    have hflush' (hne : a ≠ .resetEndOfStream) (hb : a ≠ .beginFlush)
        (hfl : (a.run env s.renderer).flushing = true) (heos : (a.run env s.renderer).eos = true) :
        Action.resetEndOfStream ∈ rest := by
      have hfl' := Action.flushing_of_run hfl hb
      exact List.mem_of_ne_of_mem hne.symm (hflush hfl' (Action.eos_of_run heos hfl'))
    have howed' (hstop : a ≠ .stopStreaming) (hne : a ≠ .resetEndOfStream)
        (hd : a.disowns = false) (hr : (a.run env s.renderer).Owed) :
        s.source.engaged = true ∨ Action.stopStreaming ∈ rest ∨ Action.resetEndOfStream ∈ rest := by
      rcases howed (Action.owed_of_run hr hd) with hsrc | hmem | hmem
      · exact .inl hsrc
      · exact .inr (.inl (List.mem_of_ne_of_mem hstop.symm hmem))
      · exact .inr (.inr (List.mem_of_ne_of_mem hne.symm hmem))
    cases a with
    | stopStreaming =>
      exact ⟨fun hr => Bool.false_ne_true.elim hr.streaming, hflush' (by simp) (by simp)⟩
    | resetEndOfStream =>
      exact ⟨fun hr => Bool.false_ne_true.elim hr.eos, fun _ => Bool.false_ne_true.elim⟩
    | killTimer =>
      refine ⟨fun hr => ?_, hflush' (by simp) (by simp)⟩
      rcases ha with hns | hmem
      · exact absurd (hns.symm.trans hr.streaming) (by simp)
      · exact .inr (.inr hmem)
    | clearPendingSample =>
      refine ⟨fun hr => ?_, hflush' (by simp) (by simp)⟩
      have hns : s.renderer.core.streaming = false := ha
      have hcore := congrArg Core.streaming s.renderer.core_clearPendingSample
      exact absurd (hns.symm.trans (hcore.symm.trans hr.streaming)) (by simp)
    | inactive => exact ⟨fun _ => .inr (.inl ha), hflush' (by simp) (by simp)⟩
    | beginFlush => exact ⟨fun _ => .inr (.inr ha.2), fun _ _ => ha.2⟩
    | _ => exact ⟨howed' (by simp) (by simp) rfl, hflush' (by simp) (by simp)⟩

/-- A source thread that comes out of `Receive` without the interface lock has been told to:
the stream is being stopped or flushed. -/
lemma SourceStep.endKept (h : SourceStep s s') (hs : s.Controlled) (hk : s.EndKept) :
    s'.EndKept := by
  obtain ⟨howed, hflush⟩ := hk
  cases h with
  | cancel pc hsig =>
    refine ⟨fun hr => ?_, hflush⟩
    rcases hs.stable.signal hsig with hns | hfl
    · exact absurd (hns.symm.trans hr.streaming) (by simp)
    · exact .inr (.inr (hflush hfl hr.eos))
  | giveUp pc =>
    refine ⟨fun hr => ?_, hflush⟩
    rw [pc] at howed
    exact (howed ⟨hr.streaming, hr.eos, hr.sample, hr.told, hr.timer⟩).imp
      Bool.false_ne_true.elim id
  | _ => exact ⟨fun _ => .inl rfl, hflush⟩

lemma EntryStep.endKept (h : EntryStep s s') (hs : s.Controlled) (hk : s.EndKept) :
    s'.EndKept := by
  obtain ⟨howed, hflush⟩ := hk
  cases h with
  | receive env d free pc hconn =>
    have hx := s.renderer.prepareReceive_prepared env d
    generalize s.renderer.prepareReceive env d = x at hx
    cases hx with
    | refused =>
      rw [pc, free] at howed
      refine ⟨fun hr => ?_, hflush⟩
      have hno := howed ⟨hr.streaming, hr.eos, hr.sample, hr.told, hr.timer⟩
      simp [Source.engaged] at hno
    | kept => exact ⟨fun _ => .inl rfl, hflush⟩
    | @scheduled _ _ heos _ r' hr' =>
      refine ⟨fun _ => .inl rfl, fun _ heos' => ?_⟩
      have hsame := BaseRenderer.scheduleSample_eos hr'
      have hset : r'.eos = true := heos'
      exact absurd (heos.symm.trans (hsame.symm.trans hset)) (by simp)
  | firstSampleStopped free pc hst =>
    refine ⟨fun hr => ?_, hflush⟩
    have hrun := ((hs.settled free).streaming hr.streaming).1
    exact absurd (hst.symm.trans hrun) (by simp)
  | firstSample => exact ⟨fun _ => .inl rfl, hflush⟩
  | renderStopped free pc hst =>
    refine ⟨fun hr => ?_, hflush⟩
    have hrun := ((hs.settled free).streaming hr.streaming).1
    exact absurd (hst.symm.trans hrun) (by simp)
  | finish env free pc hst =>
    refine ⟨fun hr => absurd hr (BaseRenderer.not_owed_finishReceive env), fun hfl heos => ?_⟩
    have hcore := congrArg Core.flushing (s.renderer.core_finishReceive env)
    exact hflush (hcore.symm.trans hfl) ((BaseRenderer.eos_finishReceive env).symm.trans heos)
  | @failed hr free pc =>
    rw [pc, free] at howed
    rw [free] at hflush
    refine ⟨fun hr => ?_, fun hfl heos => ?_⟩
    · simpa [Source.engaged] using howed hr
    · simpa using hflush hfl heos

lemma ExternalStep.endKept (h : ExternalStep s s') (hs : s.Controlled) (hk : s.EndKept) :
    s'.EndKept := by
  obtain ⟨howed, hflush⟩ := hk
  cases h with
  | clock => exact ⟨fun hr => howed ⟨hr.streaming, hr.eos, hr.sample, hr.told, hr.timer⟩, hflush⟩
  | timer env free =>
    refine ⟨fun hr => howed hr.of_timerCallback, fun hfl heos => ?_⟩
    have hcore := congrArg Core.flushing (s.renderer.core_timerCallback env)
    exact hflush (hcore.symm.trans hfl) ((BaseRenderer.eos_timerCallback env).symm.trans heos)
  | display free =>
    unfold BaseRenderer.onDisplayChange
    split_ifs
    · exact ⟨howed, hflush⟩
    · constructor
      · intro hr
        cases hsample : s.renderer.mediaSample with
        | none =>
          simp only [BaseRenderer.clearPendingSample, BaseRenderer.notify, hsample] at hr
          exact howed ⟨hr.streaming, hr.eos, hsample, hr.told, hr.timer⟩
        | some x => exact .inl (hs.engaged (by simp [BaseRenderer.core, hsample]))
      · intro hfl heos
        rw [BaseRenderer.eos_clearPendingSample] at heos
        have hcore := congrArg Core.flushing (BaseRenderer.core_clearPendingSample
          { s.renderer.notify .displayChanged with abort := true })
        exact hflush (hcore.symm.trans hfl) heos

lemma Step.endKept (h : Step s s') (hs : s.Controlled) (hk : s.EndKept) : s'.EndKept := by
  cases h with
  | call h =>
    cases h with
    | call c free =>
      obtain ⟨howed, hflush⟩ := hk
      rw [free] at howed hflush
      refine ⟨fun hr => (howed hr).imp_right fun hmem => by simp at hmem, fun hfl heos => ?_⟩
      simpa using hflush hfl heos
  | act h => exact h.endKept hs hk
  | source h => exact h.endKept hs hk
  | entry h => exact h.endKept hs hk
  | external h => exact h.endKept hs hk

lemma Reachable.endKept (h : Reachable s) : s.EndKept :=
  invariant_of_step_of (fun _ => Reachable.controlled)
    ⟨fun hr => Bool.false_ne_true.elim hr.eos, Bool.false_ne_true.elim⟩
    (fun _ _ hstep => hstep.endKept) h

/-- The end of a stream is not lost: once the source thread is out of `Receive` and no call is
in progress, a filter that plays a stream which has ended has announced it or has a timer set
to do so. A flush leaves no end of stream behind. -/
theorem end_of_stream_kept (h : Reachable s) (free : s.locked = [])
    (heos : s.renderer.eos = true) :
    s.renderer.flushing = false ∧ (s.renderer.streaming = true → s.source.engaged = false →
      s.renderer.eosDelivered = true ∨ s.renderer.endOfStreamTimer ≠ 0) := by
  obtain ⟨howed, hflush⟩ := h.endKept
  rw [free] at howed hflush
  constructor
  · by_contra hfl
    simpa using hflush (by simpa using hfl) heos
  · intro hs hsrc
    by_contra hno
    push Not at hno
    have hsample : s.renderer.mediaSample = none := by
      simpa [BaseRenderer.core] using h.controlled.holding_false hsrc
    have hr := howed ⟨hs, heos, hsample, by simpa using hno.1, hno.2⟩
    simp [hsrc] at hr

/-- The end of the stream arrives while the only sample is held, and the sample ends a tenth
of a second after it is rendered. -/
lemma reachable_ending : ∃ s, Reachable s ∧ s.locked = [] ∧ s.source = .idle ∧
    s.renderer.eos = true ∧ s.renderer.streaming = true ∧ s.renderer.eosDelivered = false := by
  let env : Surroundings := ⟨0, fun _ _ => none, fun _ => 3, by simp⟩
  have h₁ := reachable_running true
  let r : BaseRenderer :=
    { runningRenderer true with
      renderEvent := true
      mediaSample := some ⟨1, none⟩
      inReceive := true
      signalTime := 1000000
      notices := [.streamReset, .addRef ⟨1, none⟩] }
  have h₂ : Reachable ⟨r, [], .prepared⟩ :=
    h₁.step (.entry (.receive env ⟨⟨1, none⟩, true, true, 1000000⟩ rfl rfl rfl))
  have h₃ := h₂.step (.call (.call .endOfStream rfl rfl))
  have h₄ : Reachable ⟨{ r with eos := true }, [], .prepared⟩ :=
    h₃.goesOn env [.endOfStream] [] rfl
  have h₅ := h₄.step (.source (.notPaused rfl (by decide)))
  have h₆ := h₅.step (.source (.fire rfl rfl rfl))
  have h₇ := h₆.step (.source (.fired rfl))
  have h₈ : Reachable ⟨{ r with eos := true, renderEvent := false, inReceive := false }, [],
      .renderLock⟩ :=
    h₇.step (.source (.render rfl))
  have h₉ := h₈.step (.entry (.finish env rfl rfl (by decide)))
  refine ⟨_, h₉, rfl, rfl, ?_, ?_, ?_⟩
  · decide +kernel
  · decide +kernel
  · decide +kernel

theorem end_of_stream_kept_timer : ∃ s, Reachable s ∧ s.renderer.streaming = true ∧
    s.renderer.eosDelivered = false ∧ s.renderer.endOfStreamTimer ≠ 0 := by
  obtain ⟨s, h, free, hsrc, heos, hs, hd⟩ := reachable_ending
  have hkept := (end_of_stream_kept h free heos).2 hs (by rw [hsrc]; rfl)
  exact ⟨s, h, hs, hd, hkept.resolve_left (by simp [hd])⟩

end System

end StupidAR
