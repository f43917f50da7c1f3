import StupidAR.Renderer.Quiescence

/-!
# Errors in `Receive`

A `Receive` that fails while the filter is active aborts the stream: the error is reported
once, and from then on no sample is taken or rendered until the filter is stopped or a flush
ends. The report and the flag that stops later samples are two steps of one call, and the
source thread cannot come in between.
-/

namespace StupidAR

open Monitor Protocol

/-- The state is whether an error has been reported and not been reset. -/
def errorNext (reported : Bool) : Notice → Option Bool
  | .errorAbort _ => if reported then none else some true
  | .addRef _ | .rendered _ => if reported then none else some reported
  | .errorReset => some false
  | _ => some reported

namespace BaseRenderer

variable {r r' : BaseRenderer}

lemma Mildly.follows (h : r.Mildly r') {reported : Bool}
    (hf : Follows errorNext false r.notices reported) :
    Follows errorNext false r'.notices reported := by
  obtain ⟨l, hl, hmild⟩ := h
  rw [hl]
  refine follows_append.mpr ⟨reported, hf, ?_⟩
  clear hl
  induction l with
  | nil => exact follows_nil.mpr rfl
  | cons n l ih =>
    refine follows_cons.mpr ⟨reported, ?_, ih fun m hm => hmild m (List.mem_cons_of_mem n hm)⟩
    have hn := hmild n List.mem_cons_self
    cases n <;> first | rfl | cases hn

end BaseRenderer

namespace System

/-- The reports of errors follow their protocol, and a reported error stops the samples, or the
call that reported it is about to see to that. -/
structure Reported (s : System) (reported : Bool) : Prop where
  follows : Follows errorNext false s.renderer.notices reported
  stops : reported = true → s.renderer.core.runTimeError = true ∨
    Action.setRunTimeError ∈ s.locked ∧ ∀ hr, Action.errorAbort hr ∉ s.locked

variable {s s' : System} {reported : Bool}

lemma Reported.mildly (h : s.Reported reported) {r : BaseRenderer} {src : Source}
    (hr : s.renderer.Mildly r) (hcore : r.core.runTimeError = s.renderer.core.runTimeError) :
    Reported ⟨r, s.locked, src⟩ reported :=
  ⟨hr.follows h.follows, fun hrep => (h.stops hrep).imp_left hcore.trans⟩

lemma ActStep.errors (h : ActStep s s') (hs : s.Controlled) (hrep : s.Reported reported) :
    ∃ reported', s'.Reported reported' := by
  cases h with
  | @act env a rest head go =>
    have hout := hs.outline
    rw [head, Disciplined, Outline.cons_iff] at hout
    have ha := hout.1
    have hcore := congrArg Core.runTimeError (Action.core_run env s.renderer a)
    obtain ⟨hfollows, hstops⟩ := hrep
    rw [head] at hstops
    cases a with
    | errorAbort hr =>
      obtain ⟨hno, -, rfl⟩ := ha
      have hfirst : reported = false := by
        by_contra hrep
        rcases hstops (by simpa using hrep) with hrt | ⟨-, hnone⟩
        · exact absurd (hno.symm.trans hrt) (by simp)
        · exact hnone hr List.mem_cons_self
      subst hfirst
      exact ⟨true, hfollows.concat rfl, fun _ => .inr ⟨by simp, by simp⟩⟩
    | setRunTimeError => exact ⟨reported, hfollows, fun _ => .inl rfl⟩
    | inactive =>
      refine ⟨false, ?_, Bool.false_ne_true.elim⟩
      exact BaseRenderer.mildly_clearPendingSample.follows (hfollows.concat rfl)
    | endFlush => exact ⟨false, hfollows.concat rfl, Bool.false_ne_true.elim⟩
    | _ =>
      refine ⟨reported, (Action.mildly_run rfl env s.renderer).follows hfollows, fun hr => ?_⟩
      rcases hstops hr with hrt | ⟨hmem, hnone⟩
      · exact .inl (hcore.trans hrt)
      · exact .inr ⟨List.mem_of_ne_of_mem (by simp) hmem,
          fun e he => hnone e (List.mem_cons_of_mem _ he)⟩

lemma SourceStep.errors (h : SourceStep s s') (hrep : s.Reported reported) :
    s'.Reported reported := by
  cases h <;> exact ⟨hrep.follows, hrep.stops⟩

/-- While the interface lock is free, an error that has been reported stops the samples. -/
lemma Reported.eq_false (h : s.Reported reported) (free : s.locked = [])
    (hno : s.renderer.core.runTimeError = false) : reported = false := by
  by_contra hrep
  rcases h.stops (by simpa using hrep) with hrt | ⟨hmem, -⟩
  · exact absurd (hno.symm.trans hrt) (by simp)
  · simp [free] at hmem

lemma EntryStep.errors (h : EntryStep s s') (hs : s.Controlled) (hrep : s.Reported reported) :
    ∃ reported', s'.Reported reported' := by
  cases h with
  | receive env d free pc hconn =>
    have hx := s.renderer.prepareReceive_prepared env d
    generalize s.renderer.prepareReceive env d = x at hx
    have hfirst (hcheck : s.renderer.checkStreaming = .ok) : reported = false := by
      refine hrep.eq_false free ?_
      unfold BaseRenderer.checkStreaming at hcheck
      split_ifs at hcheck with _ _ hrt
      simpa [BaseRenderer.core] using hrt
    cases hx with
    | refused => exact ⟨reported, hrep.follows, hrep.stops⟩
    | kept hcheck =>
      have hno := hfirst hcheck
      subst hno
      exact ⟨false, hrep.follows.concat rfl, Bool.false_ne_true.elim⟩
    | @scheduled hcheck _ _ _ r' hr' =>
      have hno := hfirst hcheck
      subst hno
      have hsame := BaseRenderer.scheduleSample_notices hr'
      refine ⟨false, ?_, Bool.false_ne_true.elim⟩
      have hfollows : Follows errorNext false r'.notices false := by
        rw [hsame]
        exact hrep.follows
      exact hfollows.concat rfl
  | finish env free pc hst =>
    cases hsample : s.renderer.mediaSample with
    | none =>
      have hcore := congrArg Core.runTimeError (s.renderer.core_finishReceive env)
      exact ⟨reported, hrep.mildly (BaseRenderer.mildly_finishReceive hsample) hcore⟩
    | some x =>
      have hholding : s.renderer.core.holding = true := by simp [BaseRenderer.core, hsample]
      have hno := hrep.eq_false free (hs.stable.holding hholding).2.1
      subst hno
      refine ⟨false, ?_, Bool.false_ne_true.elim⟩
      have hmild : s.renderer.render.Mildly (s.renderer.finishReceive env) :=
        BaseRenderer.mildly_clearPendingSample.trans
          (BaseRenderer.mildly_sendEndOfStream.trans BaseRenderer.mildly_cancelNotification)
      refine hmild.follows ?_
      unfold BaseRenderer.render
      rw [hsample]
      dsimp only
      split_ifs
      · exact hrep.follows
      · exact hrep.follows.concat rfl
  | failed free pc =>
    refine ⟨reported, hrep.follows, fun hr => ?_⟩
    rcases hrep.stops hr with hrt | ⟨hmem, -⟩
    · exact .inl hrt
    · simp [free] at hmem
  | _ => exact ⟨reported, hrep.follows, hrep.stops⟩

lemma ExternalStep.errors (h : ExternalStep s s') (hrep : s.Reported reported) :
    s'.Reported reported := by
  cases h with
  | clock => exact ⟨hrep.follows, hrep.stops⟩
  | timer env =>
    exact hrep.mildly BaseRenderer.mildly_timerCallback
      (congrArg Core.runTimeError (s.renderer.core_timerCallback env))
  | display =>
    have hcore : s.renderer.onDisplayChange.core.runTimeError = s.renderer.core.runTimeError := by
      rcases s.renderer.core_onDisplayChange with hcore | hcore <;> rw [hcore]
    exact hrep.mildly BaseRenderer.mildly_onDisplayChange hcore

lemma Step.errors (h : Step s s') (hs : s.Controlled) (hrep : ∃ q, s.Reported q) :
    ∃ q, s'.Reported q := by
  obtain ⟨reported, hrep⟩ := hrep
  cases h with
  | call h =>
    cases h with
    | call c free =>
      refine ⟨reported, hrep.follows, fun hr => ?_⟩
      rcases hrep.stops hr with hrt | ⟨hmem, -⟩
      · exact .inl hrt
      · simp [free] at hmem
  | act h => exact h.errors hs hrep
  | source h => exact ⟨reported, h.errors hrep⟩
  | entry h => exact h.errors hs hrep
  | external h => exact ⟨reported, h.errors hrep⟩

lemma Reachable.errors (h : Reachable s) : ∃ reported, s.Reported reported :=
  invariant_of_step_of (J := fun s => ∃ q, s.Reported q) (fun _ => Reachable.controlled)
    ⟨false, follows_nil.mpr rfl, Bool.false_ne_true.elim⟩ (fun _ _ hstep => hstep.errors) h

/-- After an error has been reported no sample is taken or rendered and no other error is
reported until it is reset, and while the interface lock is free the flag is up that makes
`Receive` and `EndOfStream` fail. -/
theorem error_ends_stream (h : Reachable s) {l₁ l₂ : List Notice} {hr : HResult}
    (hn : s.renderer.notices = l₁ ++ .errorAbort hr :: l₂) (hreset : Notice.errorReset ∉ l₂) :
    taken l₂ = [] ∧ rendered l₂ = [] ∧ (∀ hr', Notice.errorAbort hr' ∉ l₂) ∧
      (s.locked = [] → s.renderer.runTimeError = true) := by
  obtain ⟨reported, hrep⟩ := h.errors
  have hnext : ∀ q n p, q = true → n ≠ .errorReset → errorNext q n = some p → p = true := by
    intro q n p hq hn hp
    cases n <;> simp_all [errorNext]
  have hfollows := hrep.follows
  rw [hn] at hfollows
  have hnone (n : Notice) (hforbids : ∀ q, q = true → errorNext q n = none) : n ∉ l₂ := by
    intro hmem
    obtain ⟨m₁, m₂, rfl⟩ := List.append_of_mem hmem
    have hsplit : Follows errorNext false (l₁ ++ .errorAbort hr :: m₁ ++ n :: m₂) reported := by
      simpa using hfollows
    obtain ⟨e, he, hres⟩ := hsplit.between (P := (· = true)) (E := (· = .errorReset))
      (by simp [errorNext]) hforbids hnext
    exact hreset (List.mem_append_left _ (hres ▸ he))
  refine ⟨?_, ?_, fun hr' => hnone _ (by simp [errorNext]), fun free => ?_⟩
  · refine List.filterMap_eq_nil_iff.mpr fun n hmem => ?_
    cases n with
    | addRef x => exact absurd hmem (hnone _ (by simp [errorNext]))
    | _ => rfl
  · refine List.filterMap_eq_nil_iff.mpr fun n hmem => ?_
    cases n with
    | rendered x => exact absurd hmem (hnone _ (by simp [errorNext]))
    | _ => rfl
  · obtain ⟨p, -, hrest⟩ := follows_append.mp hfollows
    obtain ⟨q, hq, hl₂⟩ := follows_cons.mp hrest
    have hset : q = true := by
      simp only [errorNext] at hq
      split_ifs at hq
      cases hq
      rfl
    have hlast := hl₂.persists (P := (· = true)) (E := (· = .errorReset)) hset hnext
      fun n hmem hres => hreset (hres ▸ hmem)
    by_contra hno
    have hfalse := hrep.eq_false free (by simpa [BaseRenderer.core] using hno)
    exact absurd (hfalse.symm.trans hlast) (by simp)

/-- The properties of a sample cannot be read. -/
theorem error_ends_stream_unreadable : ∃ s, Reachable s ∧
    s.renderer.notices = [.streamReset, .errorAbort .fail, .complete] ∧
    s.renderer.runTimeError = true := by
  have h₁ := reachable_running false
  have h₂ := h₁.step (.entry (.receive noClock ⟨⟨1, none⟩, false, true, 0⟩ rfl rfl rfl))
  have h₃ := h₂.step (.entry (.failed rfl rfl))
  have h₄ := h₃.finishes noClock [.errorAbort .fail, .endStreamOnError, .setRunTimeError] [] rfl
  have hends := @error_ends_stream _ h₄ [.streamReset] [.complete] .fail rfl (by decide)
  exact ⟨_, h₄, rfl, hends.2.2.2 rfl⟩

end System

end StupidAR
