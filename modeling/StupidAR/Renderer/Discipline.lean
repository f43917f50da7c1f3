import StupidAR.Monitor.Outline
import StupidAR.Renderer.Core

/-!
# The discipline of the interface lock

The outline of every call: what each action may assume of the renderer, what holds whenever
the lock is free, and what holds always.
-/

namespace StupidAR

open Monitor Relation

namespace Core

/-- What holds at every moment. -/
structure Stable (c : Core) : Prop where
  signal : c.threadSignal = true → c.streaming = false ∨ c.flushing = true
  holding : c.holding = true →
    c.threadSignal = false ∧ c.runTimeError = false ∧ c.flushing = false

/-- What holds when the interface lock is free. -/
structure Settled (c : Core) : Prop where
  streaming : c.streaming = true → c.state = .running ∧ c.connected = true
  signal : c.threadSignal = true → c.connected = true → c.state ≠ .stopped → c.flushing = true
  holding : c.holding = true → c.connected = true ∧ c.state ≠ .stopped

/-- What others do while a thread is inside the interface lock: the held sample may be lost,
and the source thread may come out of `Receive`. -/
def Weakens (c c' : Core) : Prop :=
  ∃ holding inReceive, (holding = true → c.holding = true) ∧ c' = { c with holding, inReceive }

end Core

/-- What an action assumes of the renderer and of what the call does behind it. -/
def Action.Requires (a : Action) (rest : List Action) (c : Core) : Prop :=
  match a with
  | setState .stopped => c.connected = false ∨
      killTimer ∈ rest ∧ resetEndOfStream ∈ rest ∧ cancelNotification ∈ rest ∧ ready ∈ rest
  | setClock _ => c.state = .stopped ∧ rest = []
  | setConnected false => c.state = .stopped
  | completeStateChange _ => c.state ≠ .stopped
  | canWait false => c.streaming = false ∧ c.holding = false ∧ cancelNotification ∈ rest
  | startStreaming => c.state = .running ∧ c.connected = true ∧ c.threadSignal = false
  | stopStreaming => cancelNotification ∈ rest
  | cancelNotification => c.holding = false ∨ c.streaming = false
  | killTimer => c.streaming = false ∨ resetEndOfStream ∈ rest
  | clearPendingSample => c.streaming = false
  | inactive => stopStreaming ∈ rest
  | waitReceive | waitFlush => c.threadSignal = true
  | beginFlush => c.connected = true ∧ resetEndOfStream ∈ rest
  | endOfStream => c.connected = true
  | errorAbort _ => c.runTimeError = false ∧ c.holding = false ∧
      rest = [endStreamOnError, setRunTimeError]
  | setRunTimeError => c.holding = false
  | _ => True

/-- The thread inside the interface lock keeps to its outline. -/
abbrev Disciplined (l : List Action) (c : Core) : Prop :=
  Outline Action.effect Action.Requires Core.Settled l c

section Interference

variable {c c' : Core}

lemma Core.weakens_inReceive (c : Core) (b : Bool) : c.Weakens { c with inReceive := b } :=
  ⟨c.holding, b, id, rfl⟩

lemma Core.weakens_lost (c : Core) : c.Weakens { c with holding := false } :=
  ⟨false, c.inReceive, Bool.false_ne_true.elim, rfl⟩

lemma Action.effect_weakens (a : Action) (h : c.Weakens c') :
    (a.effect c).Weakens (a.effect c') := by
  obtain ⟨holding, inReceive, hh, rfl⟩ := h
  cases a with
  | clearPendingSample | inactive | beginFlush =>
    exact ⟨false, inReceive, Bool.false_ne_true.elim, rfl⟩
  | _ => exact ⟨holding, inReceive, hh, rfl⟩

lemma Action.requires_weakens (a : Action) (rest : List Action) (h : c.Weakens c')
    (ha : a.Requires rest c) : a.Requires rest c' := by
  obtain ⟨holding, inReceive, hh, rfl⟩ := h
  cases holding with
  | false => unfold Action.Requires at ha ⊢; split <;> simp_all
  | true => unfold Action.Requires at ha ⊢; split <;> simp_all

lemma Core.Settled.weakens (h : c.Weakens c') (hc : c.Settled) : c'.Settled := by
  obtain ⟨holding, inReceive, hh, rfl⟩ := h
  exact ⟨hc.streaming, hc.signal, fun h => hc.holding (hh h)⟩

lemma Core.Stable.weakens (h : c.Weakens c') (hc : c.Stable) : c'.Stable := by
  obtain ⟨holding, inReceive, hh, rfl⟩ := h
  exact ⟨hc.signal, fun h => hc.holding (hh h)⟩

lemma Disciplined.weakens {l : List Action} (h : c.Weakens c') (hl : Disciplined l c) :
    Disciplined l c' :=
  hl.stable (R := Core.Weakens) (fun a _ _ => a.effect_weakens)
    (fun a rest _ _ => a.requires_weakens rest) (fun _ _ => Core.Settled.weakens) h

end Interference

/-- An action that finds its assertion keeps what always holds. -/
lemma Action.stable_effect {a : Action} {rest : List Action} {c : Core} (ha : a.Requires rest c)
    (hc : c.Stable) : (a.effect c).Stable := by
  obtain ⟨hsignal, hholding⟩ := hc
  cases a with
  | canWait b =>
    cases b with
    | true => exact ⟨Bool.false_ne_true.elim, fun h => ⟨rfl, (hholding h).2⟩⟩
    | false =>
      obtain ⟨hs, hh, -⟩ := ha
      exact ⟨fun _ => .inl hs, fun h => by simp [effect, hh] at h⟩
  | startStreaming =>
    obtain ⟨-, -, hsig⟩ := ha
    exact ⟨fun h => by simp [effect, hsig] at h, hholding⟩
  | stopStreaming => exact ⟨fun _ => .inl rfl, hholding⟩
  | clearPendingSample => exact ⟨hsignal, Bool.false_ne_true.elim⟩
  | inactive => exact ⟨hsignal, Bool.false_ne_true.elim⟩
  | beginFlush => exact ⟨fun _ => .inr rfl, Bool.false_ne_true.elim⟩
  | endFlush => exact ⟨Bool.false_ne_true.elim, fun _ => ⟨rfl, rfl, rfl⟩⟩
  | setRunTimeError =>
    have hh : c.holding = false := ha
    exact ⟨hsignal, fun h => by simp [effect, hh] at h⟩
  | _ => exact ⟨hsignal, hholding⟩

section Calls

variable {c : Core}

lemma Core.Settled.idle (h : c.Settled) (hidle : c.state = .stopped ∨ c.connected = false) :
    c.streaming = false ∧ c.holding = false := by
  constructor
  · by_contra hs
    have hrun := h.streaming (by simpa using hs)
    rcases hidle with hst | hconn
    · exact absurd (hst.symm.trans hrun.1) (by simp)
    · exact absurd (hconn.symm.trans hrun.2) (by simp)
  · by_contra hh
    have hheld := h.holding (by simpa using hh)
    rcases hidle with hst | hconn
    · exact hheld.2 hst
    · exact absurd (hconn.symm.trans hheld.1) (by simp)

lemma Core.Settled.setState (h : c.Settled) (hconn : c.connected = false) (st : FilterState) :
    Core.Settled { c with state := st } := by
  obtain ⟨hs, hh⟩ := h.idle (.inr hconn)
  refine ⟨fun hs' => ?_, fun _ hc' => ?_, fun hh' => ?_⟩
  · exact absurd (hs.symm.trans hs') (by simp)
  · exact absurd (hconn.symm.trans hc') (by simp)
  · exact absurd (hh.symm.trans hh') (by simp)

lemma disciplined_stopActions (c : Core) : Disciplined stopActions c := by
  simp [Disciplined, stopActions, Action.Requires, Action.effect]
  exact ⟨Bool.false_ne_true.elim, fun _ _ h => absurd rfl h, Bool.false_ne_true.elim⟩

lemma disciplined_pauseActions (hconn : c.connected = true) :
    Disciplined (pauseActions c.state) c := by
  by_cases hst : c.state = .stopped
  · simp [Disciplined, pauseActions, Action.Requires, Action.effect, hst]
    exact ⟨Bool.false_ne_true.elim, Bool.false_ne_true.elim, Bool.false_ne_true.elim⟩
  · simp [Disciplined, pauseActions, Action.Requires, Action.effect, hst]
    exact ⟨Bool.false_ne_true.elim, Bool.false_ne_true.elim, fun _ => ⟨hconn, by simp⟩⟩

lemma disciplined_runActions (hconn : c.connected = true) (t : ℤ) :
    Disciplined (runActions c.state t) c := by
  by_cases hst : c.state = .stopped
  · simp [Disciplined, runActions, pauseActions, Action.Requires, Action.effect, hst, hconn]
    exact ⟨fun _ => ⟨rfl, rfl⟩, Bool.false_ne_true.elim, Bool.false_ne_true.elim⟩
  · simp [Disciplined, runActions, Action.Requires, Action.effect, hst, hconn]
    exact ⟨fun _ => ⟨rfl, rfl⟩, Bool.false_ne_true.elim, fun _ => ⟨rfl, by simp⟩⟩

lemma disciplined_errorActions (hr : HResult) (r : BaseRenderer) (h : r.core.Settled)
    (hnone : r.mediaSample = none) : Disciplined (errorActions hr r) r.core := by
  unfold errorActions
  split_ifs with herr
  · have hh : r.core.holding = false := by simp [BaseRenderer.core, hnone]
    have hrt : r.core.runTimeError = false := herr.2.2.2
    refine ⟨⟨hrt, hh, rfl⟩, trivial, hh, ?_⟩
    exact ⟨h.streaming, h.signal, h.holding⟩
  · exact h

/-- Every call that is allowed keeps to its outline. -/
lemma disciplined_request {r : BaseRenderer} (h : r.core.Settled) (q : Request)
    (hq : q.Allowed r) : Disciplined (q.actions r) r.core := by
  cases q with
  | stop =>
    simp only [Request.actions]
    split_ifs with hst hconn
    · exact h
    · exact ⟨.inl hconn, h.setState hconn .stopped⟩
    · exact disciplined_stopActions r.core
  | pause =>
    simp only [Request.actions]
    split_ifs with hst hconn
    · exact ⟨fun hst' => absurd (hst.symm.trans hst') (by simp), h⟩
    · exact ⟨trivial, FilterState.noConfusion, h.setState hconn .paused⟩
    · exact disciplined_pauseActions (c := r.core) (by simpa [BaseRenderer.core] using hconn)
  | run t =>
    simp only [Request.actions]
    split_ifs with hst hconn
    · exact h
    · exact ⟨trivial, trivial, h.setState hconn .running⟩
    · exact disciplined_runActions (c := r.core) (by simpa [BaseRenderer.core] using hconn) t
  | setSyncSource clock => exact ⟨⟨hq, rfl⟩, h⟩
  | receiveConnection =>
    simp only [Request.actions]
    split_ifs with hno
    · exact h
    · push Not at hno
      obtain ⟨hs, hh⟩ := h.idle (.inl hno.2)
      refine ⟨trivial, fun hs' => ?_, fun _ _ hst => absurd hno.2 hst, fun hh' => ?_⟩
      · exact absurd (hs.symm.trans hs') (by simp)
      · exact absurd (hh.symm.trans hh') (by simp)
  | disconnect =>
    simp only [Request.actions]
    split_ifs with hno
    · exact h
    · push Not at hno
      obtain ⟨hs, -⟩ := h.idle (.inl hno.1)
      refine ⟨.inl hs, trivial, hs, trivial, hno.1, fun hs' => ?_, fun _ hc => ?_, fun hh => ?_⟩
      · exact absurd (hs.symm.trans hs') (by simp)
      · exact absurd hc Bool.false_ne_true
      · exact absurd hh Bool.false_ne_true
  | beginFlush =>
    refine ⟨⟨hq, by simp⟩, rfl, .inr (by simp), trivial, ?_⟩
    exact ⟨h.streaming, fun _ _ _ => rfl, Bool.false_ne_true.elim⟩
  | endFlush =>
    exact ⟨trivial, h.streaming, Bool.false_ne_true.elim, h.holding⟩
  | endOfStream => exact ⟨hq, h⟩

end Calls

end StupidAR
