import StupidAR.Renderer.Schedule

/-!
# A filter at rest

A filter that is stopped, or not connected, has nothing left of the stream: no sample, no end
of stream, no timer and no request to the clock, and its last state change is complete.
-/

namespace StupidAR

open Monitor

/-- What is left of a stream, each unless the call inside the interface lock is about to clear
it. -/
structure BaseRenderer.Cleared (r : BaseRenderer) (l : List Action) : Prop where
  timer : r.endOfStreamTimer = 0 ∨ Action.killTimer ∈ l
  eos : r.eos = false ∨ Action.resetEndOfStream ∈ l
  complete : r.evComplete = true ∨ Action.ready ∈ l

def BaseRenderer.AtRest (r : BaseRenderer) : Prop := r.state = .stopped ∨ r.connected = false

namespace System

def Quiet (s : System) : Prop := s.renderer.AtRest → s.renderer.Cleared s.locked

end System

namespace BaseRenderer

variable {r r' : BaseRenderer} {l rest : List Action} {a : Action}

lemma Cleared.pop (h : r.Cleared (a :: rest)) (hkill : a ≠ .killTimer)
    (hreset : a ≠ .resetEndOfStream) (hready : a ≠ .ready) : r.Cleared rest :=
  ⟨h.timer.imp_right (List.mem_of_ne_of_mem hkill.symm),
    h.eos.imp_right (List.mem_of_ne_of_mem hreset.symm),
    h.complete.imp_right (List.mem_of_ne_of_mem hready.symm)⟩

lemma Cleared.sent (h : r.Cleared l) (hr : r.Sent r')
    (htimer : r.eos = true → Action.killTimer ∈ l) : r'.Cleared l := by
  cases hr with
  | skip => exact h
  | complete heos => exact ⟨.inr (htimer heos), h.eos, h.complete⟩
  | arm heos => exact ⟨.inr (htimer heos), h.eos, h.complete⟩

lemma Cleared.cancelNotification (h : r.Cleared l) : r.cancelNotification.Cleared l := by
  unfold BaseRenderer.cancelNotification
  split_ifs <;> exact ⟨h.timer, h.eos, h.complete⟩

lemma Cleared.clearPendingSample (h : r.Cleared l) : r.clearPendingSample.Cleared l := by
  unfold BaseRenderer.clearPendingSample
  split <;> exact ⟨h.timer, h.eos, h.complete⟩

lemma Cleared.beginFlush (h : r.Cleared l) (hst : r.state = .stopped) :
    r.beginFlush.Cleared l := by
  unfold BaseRenderer.beginFlush
  refine clearPendingSample (cancelNotification ?_)
  dsimp only
  rw [if_neg (by simp [hst])]
  exact ⟨h.timer, h.eos, h.complete⟩

lemma Cleared.endOfStream (h : r.Cleared l) (hst : r.state = .stopped) (env : Surroundings) :
    (r.endOfStream env).Cleared l := by
  unfold BaseRenderer.endOfStream
  rwa [if_pos (.inr hst)]

lemma Cleared.endStreamOnError (h : r.Cleared l) : r.endStreamOnError.Cleared l := by
  unfold BaseRenderer.endStreamOnError notifyEndOfStream
  split_ifs
  · exact h
  · exact ⟨.inl rfl, h.eos, h.complete⟩
  · exact h

lemma Cleared.render (h : r.Cleared l) : r.render.Cleared l := by
  unfold BaseRenderer.render
  split
  · exact h
  · split_ifs <;> exact ⟨h.timer, h.eos, h.complete⟩

lemma Cleared.finishReceive (h : r.Cleared l) (heos : r.eos = false) (env : Surroundings) :
    (r.finishReceive env).Cleared l := by
  have hsame : r.render.clearPendingSample.eos = r.eos := by
    rw [eos_clearPendingSample]
    unfold BaseRenderer.render
    split
    · rfl
    · split_ifs <;> rfl
  refine cancelNotification (h.render.clearPendingSample.sent (sendEndOfStream_sent env _) ?_)
  intro heos'
  rw [hsame, heos] at heos'
  cases heos'

lemma Cleared.timerCallback (h : r.Cleared l) (env : Surroundings) :
    (r.timerCallback env).Cleared l := by
  unfold BaseRenderer.timerCallback
  split_ifs with htimer
  · exact h
  · have hkill : Action.killTimer ∈ l := h.timer.resolve_left htimer
    refine Cleared.sent (r := { r with endOfStreamTimer := 0 }) ?_ (sendEndOfStream_sent env _)
      fun _ => hkill
    exact ⟨.inr hkill, h.eos, h.complete⟩

lemma Cleared.onDisplayChange (h : r.Cleared l) : r.onDisplayChange.Cleared l := by
  unfold BaseRenderer.onDisplayChange
  split_ifs
  · exact h
  · exact clearPendingSample ⟨h.timer, h.eos, h.complete⟩

lemma AtRest.stopped (h : r.AtRest) (hconn : r.connected = true) : r.state = .stopped :=
  h.resolve_right (by simp [hconn])

end BaseRenderer

/-- An action that finds its assertion keeps a filter at rest clear of the stream. -/
lemma Action.cleared_run {env : Surroundings} {r : BaseRenderer} {a : Action} {rest : List Action}
    (ha : a.Requires rest r.core) (h : r.AtRest → r.Cleared (a :: rest))
    (hrest : (a.run env r).AtRest) : (a.run env r).Cleared rest := by
  have hcore := core_run env r a
  have hst := congrArg Core.state hcore
  have hconn := congrArg Core.connected hcore
  -- most actions change neither whether the filter is at rest nor what is left of the stream
  have hkept (hsame : (a.effect r.core).state = r.state ∧ (a.effect r.core).connected = r.connected)
      (hkill : a ≠ killTimer) (hreset : a ≠ resetEndOfStream) (hready : a ≠ ready) :
      r.Cleared rest :=
    (h (hrest.imp (fun h => hsame.1.symm.trans (hst.symm.trans h))
      fun h => hsame.2.symm.trans (hconn.symm.trans h))).pop hkill hreset hready
  cases a with
  | setState st =>
    have hunconnected (hno : r.connected = false) :
        BaseRenderer.Cleared { r with state := st } rest := by
      have hclear := (h (.inr hno)).pop (by simp) (by simp) (by simp)
      exact ⟨hclear.timer, hclear.eos, hclear.complete⟩
    cases st with
    | stopped =>
      rcases ha with hno | ⟨hkill, hreset, -, hready⟩
      · exact hunconnected hno
      · exact ⟨.inr hkill, .inr hreset, .inr hready⟩
    | paused => exact hunconnected (hrest.resolve_left (by simp [run]))
    | running => exact hunconnected (hrest.resolve_left (by simp [run]))
  | setConnected b =>
    have hstopped (hst : r.state = .stopped) : r.Cleared rest :=
      (h (.inl hst)).pop (by simp) (by simp) (by simp)
    cases b with
    | true =>
      have hclear := hstopped (hrest.stopped rfl)
      exact ⟨hclear.timer, hclear.eos, hclear.complete⟩
    | false =>
      have hclear := hstopped ha
      exact ⟨hclear.timer, hclear.eos, hclear.complete⟩
  | ready =>
    have hclear := h hrest
    exact ⟨hclear.timer.imp_right (List.mem_of_ne_of_mem (by simp)),
      hclear.eos.imp_right (List.mem_of_ne_of_mem (by simp)), .inl rfl⟩
  | killTimer =>
    have hclear := h hrest
    exact ⟨.inl rfl, hclear.eos.imp_right (List.mem_of_ne_of_mem (by simp)),
      hclear.complete.imp_right (List.mem_of_ne_of_mem (by simp))⟩
  | resetEndOfStream =>
    have hclear := h hrest
    exact ⟨hclear.timer.imp_right (List.mem_of_ne_of_mem (by simp)), .inl rfl,
      hclear.complete.imp_right (List.mem_of_ne_of_mem (by simp))⟩
  | completeStateChange old =>
    have hno : r.connected = false :=
      hconn.symm.trans (hrest.resolve_left fun h => ha (hst.symm.trans h))
    have hclear := hkept ⟨rfl, rfl⟩ (by simp) (by simp) (by simp)
    simp only [run, BaseRenderer.completeStateChange, if_pos hno]
    exact ⟨hclear.timer, hclear.eos, .inl rfl⟩
  | startStreaming =>
    obtain ⟨hrunning, hconnected, -⟩ := ha
    have hstopped : (startStreaming.run env r).state = .stopped :=
      hrest.stopped (hconn.trans hconnected)
    cases hrunning.symm.trans (hst.symm.trans hstopped)
  | beginFlush =>
    have hstopped := hst.symm.trans (hrest.stopped (hconn.trans ha.1))
    exact (hkept ⟨rfl, rfl⟩ (by simp) (by simp) (by simp)).beginFlush hstopped
  | endOfStream =>
    have hstopped := hst.symm.trans (hrest.stopped (hconn.trans ha))
    exact (hkept ⟨rfl, rfl⟩ (by simp) (by simp) (by simp)).endOfStream hstopped env
  | cancelNotification =>
    exact (hkept ⟨rfl, rfl⟩ (by simp) (by simp) (by simp)).cancelNotification
  | clearPendingSample =>
    exact (hkept ⟨rfl, rfl⟩ (by simp) (by simp) (by simp)).clearPendingSample
  | inactive =>
    have hclear := hkept ⟨rfl, rfl⟩ (by simp) (by simp) (by simp)
    exact BaseRenderer.Cleared.clearPendingSample ⟨hclear.timer, hclear.eos, hclear.complete⟩
  | endStreamOnError =>
    exact (hkept ⟨rfl, rfl⟩ (by simp) (by simp) (by simp)).endStreamOnError
  | _ =>
    have hclear := hkept ⟨rfl, rfl⟩ (by simp) (by simp) (by simp)
    exact ⟨hclear.timer, hclear.eos, hclear.complete⟩

namespace System

variable {s s' : System}

lemma ActStep.quiet (h : ActStep s s') (hs : s.Controlled) (hq : s.Quiet) : s'.Quiet := by
  cases h with
  | @act env a rest head go =>
    have hout := hs.outline
    rw [head, Disciplined, Outline.cons_iff] at hout
    unfold Quiet at hq
    rw [head] at hq
    exact Action.cleared_run hout.1 hq

lemma SourceStep.quiet (h : SourceStep s s') (hq : s.Quiet) : s'.Quiet := by
  intro hrest
  cases h with
  | ready =>
    have hclear := hq hrest
    exact ⟨hclear.timer, hclear.eos, .inl rfl⟩
  | _ =>
    have hclear := hq hrest
    exact ⟨hclear.timer, hclear.eos, hclear.complete⟩

lemma EntryStep.quiet (h : EntryStep s s') (hs : s.Controlled) (hq : s.Quiet) : s'.Quiet := by
  intro hrest
  cases h with
  | receive env d free pc hconn =>
    have hx := s.renderer.prepareReceive_prepared env d
    generalize s.renderer.prepareReceive env d = x at hx hrest
    cases hx with
    | @refused hr _ complete hcomplete =>
      have hclear := hq hrest
      refine ⟨hclear.timer, hclear.eos, ?_⟩
      rcases hcomplete with hc | hc
      · exact .inl hc
      · exact hclear.complete.imp_left hc.trans
    | kept =>
      have hclear := hq hrest
      exact ⟨hclear.timer, hclear.eos, hclear.complete⟩
    | @scheduled _ _ _ hplays r' hr' =>
      have hcore := BaseRenderer.scheduleSample_core env _ hr'
      obtain ⟨hrunning, hconnected⟩ := (hs.settled free).streaming hplays
      rcases hrest with hst | hno
      · cases hrunning.symm.trans ((congrArg Core.state hcore).symm.trans hst)
      · cases hconnected.symm.trans ((congrArg Core.connected hcore).symm.trans hno)
  | finish env free pc hst =>
    have hcore := s.renderer.core_finishReceive env
    have hclear := hq (hrest.imp (congrArg Core.state hcore).symm.trans
      (congrArg Core.connected hcore).symm.trans)
    have heos := hclear.eos
    rw [free] at heos
    exact hclear.finishReceive (heos.resolve_right (by simp)) env
  | failed free pc =>
    have hclear := hq hrest
    rw [free] at hclear
    exact ⟨.inl (hclear.timer.resolve_right (by simp)), .inl (hclear.eos.resolve_right (by simp)),
      .inl (hclear.complete.resolve_right (by simp))⟩
  | _ =>
    have hclear := hq hrest
    exact ⟨hclear.timer, hclear.eos, hclear.complete⟩

lemma ExternalStep.quiet (h : ExternalStep s s') (hq : s.Quiet) : s'.Quiet := by
  intro hrest
  cases h with
  | clock =>
    have hclear := hq hrest
    exact ⟨hclear.timer, hclear.eos, hclear.complete⟩
  | timer env =>
    have hcore := s.renderer.core_timerCallback env
    exact (hq (hrest.imp (congrArg Core.state hcore).symm.trans
      (congrArg Core.connected hcore).symm.trans)).timerCallback env
  | display =>
    rcases s.renderer.core_onDisplayChange with hcore | hcore <;>
      exact (hq (hrest.imp (congrArg Core.state hcore).symm.trans
        (congrArg Core.connected hcore).symm.trans)).onDisplayChange

lemma Step.quiet (h : Step s s') (hs : s.Controlled) (hq : s.Quiet) : s'.Quiet := by
  cases h with
  | call h =>
    cases h with
    | call c free =>
      intro hrest
      have hclear := hq hrest
      rw [free] at hclear
      exact ⟨.inl (hclear.timer.resolve_right (by simp)),
        .inl (hclear.eos.resolve_right (by simp)), .inl (hclear.complete.resolve_right (by simp))⟩
  | act h => exact h.quiet hs hq
  | source h => exact h.quiet hq
  | entry h => exact h.quiet hs hq
  | external h => exact h.quiet hq

lemma Reachable.quiet (h : Reachable s) : s.Quiet :=
  invariant_of_step_of (fun _ => Reachable.controlled) (fun _ => ⟨.inl rfl, .inl rfl, .inl rfl⟩)
    (fun _ _ hstep => hstep.quiet) h

/-- Whatever happened before, a filter that is stopped or not connected holds no sample, plays
no stream, remembers no end of stream, has no timer running and no request out to the clock,
and says that its state change is complete. -/
theorem at_rest (h : Reachable s) (free : s.locked = [])
    (hrest : s.renderer.state = .stopped ∨ s.renderer.connected = false) :
    s.renderer.mediaSample = none ∧ s.renderer.streaming = false ∧ s.renderer.eos = false ∧
      s.renderer.eosDelivered = false ∧ s.renderer.endOfStreamTimer = 0 ∧ s.renderer.advise = 0 ∧
      s.renderer.evComplete = true := by
  have hclear := h.quiet hrest
  rw [free] at hclear
  obtain ⟨hplays, hholding⟩ := (h.controlled.settled free).idle hrest
  have hsample : s.renderer.mediaSample = none := by simpa [BaseRenderer.core] using hholding
  have htold : s.renderer.eosDelivered = false := by
    by_contra hd
    have hs := h.orderly.delivered (by simpa using hd)
    exact absurd (hplays.symm.trans hs) (by simp)
  exact ⟨hsample, hplays, hclear.eos.resolve_right (by simp), htold,
    hclear.timer.resolve_right (by simp), h.advised.none free (.inl hplays),
    hclear.complete.resolve_right (by simp)⟩

/-- The filter is stopped while a sample waits for the clock. -/
theorem at_rest_stopped : ∃ s, Reachable s ∧ s.renderer.state = .stopped ∧
    taken s.renderer.notices = [⟨1, some (5, 6)⟩] ∧ s.renderer.mediaSample = none ∧
    s.renderer.advise = 0 ∧ s.renderer.evComplete = true := by
  let env : Surroundings := ⟨0, fun _ _ => some 7, fun _ => 0, by simp⟩
  have h₁ := reachable_running true
  have h₂ := h₁.step (.entry (.receive env ⟨⟨1, some (5, 6)⟩, true, true, 6⟩ rfl rfl rfl))
  have h₃ := h₂.step (.source (.notPaused rfl (by decide)))
  have h₄ := h₃.step (.call (.call .stop rfl trivial))
  have h₅ := h₄.goesOn env (stopActions.take 8) [.waitReceive, .clearAbort] rfl
  have h₆ := h₅.step (.source (.cancel rfl rfl))
  have h₇ := h₆.step (.source (.giveUp rfl))
  have h₈ := h₇.finishes env [.waitReceive, .clearAbort] [] rfl
  obtain ⟨hsample, -, -, -, -, hadvise, hcomplete⟩ := at_rest h₈ rfl (.inl rfl)
  exact ⟨_, h₈, rfl, rfl, hsample, hadvise, hcomplete⟩

end System

end StupidAR
