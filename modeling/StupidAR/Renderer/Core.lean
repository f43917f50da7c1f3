import Mathlib.Tactic.Push
import Mathlib.Tactic.Tauto
import StupidAR.Renderer.Threads

/-!
# What the interface lock decides

The part of the renderer that the threads inside the interface lock decide. Outside it a
change of the display may lose the held sample, and the source thread marks that it is inside
`Receive`. What an action does to this part does not depend on the surroundings.
-/

namespace StupidAR

structure Core where
  state : FilterState
  connected : Bool
  flushing : Bool
  runTimeError : Bool
  threadSignal : Bool
  streaming : Bool
  holding : Bool
  inReceive : Bool
  deriving DecidableEq

namespace BaseRenderer

variable (env : Surroundings) (r : BaseRenderer)

def core : Core where
  state := r.state
  connected := r.connected
  flushing := r.flushing
  runTimeError := r.runTimeError
  threadSignal := r.threadSignal
  streaming := r.streaming
  holding := r.mediaSample.isSome
  inReceive := r.inReceive

/-- Everything `SendEndOfStream` can do. -/
inductive Sent : BaseRenderer → Prop
  | skip (h : r.eos = false ∨ r.eosDelivered = true ∨ r.endOfStreamTimer ≠ 0 ∨
      r.streaming = false) : Sent r
  | complete (heos : r.eos = true) (hd : r.eosDelivered = false) (hs : r.streaming = true) :
    Sent { r.notify .complete with endOfStreamTimer := 0, eosDelivered := true }
  | arm (heos : r.eos = true) (hd : r.eosDelivered = false) (n : ℕ) (hn : n ≠ 0) :
    Sent { r with endOfStreamTimer := n }

lemma sendEndOfStream_sent : r.Sent (r.sendEndOfStream env) := by
  unfold sendEndOfStream
  split_ifs with hskip hnow
  · exact .skip (by tauto)
  · push Not at hskip
    unfold notifyEndOfStream
    split_ifs with hs
    · exact .skip (.inr (.inr (.inr hs)))
    · exact .complete (by simpa using hskip.1) (by simpa using hskip.2.1) (by simpa using hs)
  · push Not at hskip hnow
    exact .arm (by simpa using hskip.1) (by simpa using hskip.2.1) _ hnow.2.2

variable {r} in
lemma Sent.core {r' : BaseRenderer} (h : r.Sent r') : r'.core = r.core := by
  cases h <;> rfl

@[simp] lemma core_notify (n : Notice) : (r.notify n).core = r.core := rfl

@[simp] lemma core_ready : r.ready.core = r.core := rfl

@[simp] lemma core_notReady : r.notReady.core = r.core := rfl

@[simp] lemma core_signalTimerFired : r.signalTimerFired.core = r.core := rfl

@[simp] lemma core_cancelNotification : r.cancelNotification.core = r.core := by
  unfold cancelNotification
  split_ifs <;> rfl

@[simp] lemma core_clearPendingSample :
    r.clearPendingSample.core = { r.core with holding := false } := by
  unfold clearPendingSample
  split
  · simp [core, *]
  · rfl

@[simp] lemma core_sendEndOfStream : (r.sendEndOfStream env).core = r.core :=
  (r.sendEndOfStream_sent env).core

@[simp] lemma core_timerCallback : (r.timerCallback env).core = r.core := by
  unfold timerCallback
  split_ifs
  · rfl
  · rw [core_sendEndOfStream]
    rfl

@[simp] lemma core_completeStateChange (old : FilterState) :
    (r.completeStateChange old).core = r.core := by
  unfold completeStateChange
  split_ifs <;> rfl

lemma scheduleSample_core {r' : BaseRenderer} {s : MediaSample}
    (h : r.scheduleSample env s = some r') : r'.core = r.core := by
  unfold scheduleSample at h
  split at h
  · cases h
  · cases h
    rfl
  · obtain ⟨cookie, -, rfl⟩ := Option.map_eq_some_iff.mp h
    rfl

@[simp] lemma core_startStreaming :
    (r.startStreaming env).core = { r.core with streaming := true } := by
  unfold startStreaming
  split_ifs with hs
  · simp [core, hs]
  · split
    · rw [core_sendEndOfStream]
      rfl
    · next s _ =>
      cases h : scheduleSample env { r with streaming := true } s with
      | none => rfl
      | some r' =>
        rw [Option.getD_some, scheduleSample_core env _ h]
        rfl

@[simp] lemma core_inactive :
    r.inactive.core = { r.core with runTimeError := false, holding := false } := by
  unfold inactive
  rw [core_clearPendingSample]
  rfl

@[simp] lemma core_endOfStream : (r.endOfStream env).core = r.core := by
  unfold endOfStream
  split_ifs
  · rfl
  · rfl
  · rw [core_sendEndOfStream]
    rfl
  · rfl

@[simp] lemma core_beginFlush :
    r.beginFlush.core =
      { r.core with flushing := true, threadSignal := true, holding := false } := by
  unfold beginFlush
  rw [core_clearPendingSample, core_cancelNotification]
  dsimp only
  split_ifs <;> rfl

@[simp] lemma core_endFlush :
    r.endFlush.core =
      { r.core with flushing := false, runTimeError := false, threadSignal := false } := rfl

lemma core_onDisplayChange :
    r.onDisplayChange.core = r.core ∨
      r.onDisplayChange.core = { r.core with holding := false } := by
  unfold onDisplayChange
  split_ifs
  · exact .inl rfl
  · right
    rw [core_clearPendingSample]
    rfl

@[simp] lemma core_endStreamOnError : r.endStreamOnError.core = r.core := by
  unfold endStreamOnError notifyEndOfStream
  split_ifs <;> rfl

@[simp] lemma core_render : r.render.core = r.core := by
  unfold render
  split
  · rfl
  · split_ifs <;> rfl

@[simp] lemma core_finishReceive :
    (r.finishReceive env).core = { r.core with holding := false } := by
  simp [finishReceive]

@[simp] lemma core_keepSample (d : Delivery) :
    (r.keepSample d).core = { r.core with holding := true } := rfl

/-- Everything `PrepareReceive` can do: a result without a sample kept leaves all but the
completion of a state change as it is. -/
inductive Prepared (d : Delivery) : HResult × BaseRenderer → Prop
  | refused {hr : HResult} (hfailed : hr.failed = true) (complete : Bool)
    (h : complete = true ∨ complete = r.evComplete) :
    Prepared d (hr, { r with inReceive := false, evComplete := complete })
  | kept (hcheck : r.checkStreaming = .ok) (hsample : r.mediaSample = none) (heos : r.eos = false)
    (hs : r.streaming = false) : Prepared d (.ok, keepSample { r with inReceive := true } d)
  | scheduled (hcheck : r.checkStreaming = .ok) (hsample : r.mediaSample = none)
    (heos : r.eos = false) (hs : r.streaming = true) {r' : BaseRenderer}
    (hr' : scheduleSample env { r with inReceive := true } d.sample = some r') :
    Prepared d (.ok, r'.keepSample d)

lemma prepareReceive_prepared (d : Delivery) : r.Prepared env d (r.prepareReceive env d) := by
  unfold prepareReceive acceptSample
  dsimp only
  split_ifs with hcheck htype hunexpected hs
  · exact .refused rfl r.evComplete (.inr rfl)
  · exact .refused rfl r.evComplete (.inr rfl)
  · exact .refused rfl true (.inl rfl)
  · push Not at hcheck hunexpected
    have hchk : r.checkStreaming = .ok := hcheck.1
    have hnone : r.mediaSample = none := by simpa using hunexpected.1
    split
    · exact .refused rfl r.evComplete (.inr rfl)
    · next r' hr' => exact .scheduled hchk hnone (by simpa using hunexpected.2.1) hs hr'
  · push Not at hcheck hunexpected
    have hchk : r.checkStreaming = .ok := hcheck.1
    have hnone : r.mediaSample = none := by simpa using hunexpected.1
    exact .kept hchk hnone (by simpa using hunexpected.2.1) (by simpa using hs)

end BaseRenderer

namespace Action

/-- What an action does to the part under the interface lock. -/
def effect (a : Action) (c : Core) : Core :=
  match a with
  | setState st => { c with state := st }
  | setConnected connected => { c with connected := connected }
  | canWait b => { c with threadSignal := !b }
  | startStreaming => { c with streaming := true }
  | stopStreaming => { c with streaming := false }
  | clearPendingSample => { c with holding := false }
  | inactive => { c with runTimeError := false, holding := false }
  | beginFlush => { c with flushing := true, threadSignal := true, holding := false }
  | endFlush => { c with flushing := false, runTimeError := false, threadSignal := false }
  | setRunTimeError => { c with runTimeError := true }
  | _ => c

lemma core_run (env : Surroundings) (r : BaseRenderer) (a : Action) :
    (a.run env r).core = a.effect r.core := by
  cases a with
  | setConnected b => cases b <;> rfl
  | _ => simp [run, effect] <;> rfl

end Action

end StupidAR
